import SharedDocument.Proofs.Document.Atomicity
import SharedDocument.Proofs.Document.WellFormed
import SharedDocument.Proofs.Position

/-! What an edit does to references. Those of the edited node follow the edit or are dropped, those of
nodes that leave the arena go with them, and no others change. -/

namespace SharedDocument

open DataValue (Occurs Within)

@[simp] theorem ReferenceValue.map_id (value : ReferenceValue) : value.map id = value := by
  have same : IndexRange.map id = id := rfl
  cases value <;> simp [ReferenceValue.map, same]

@[simp] theorem ReferenceMap.map_id (references : ReferenceMap) : references.map id = references := by
  cases references
  simp [ReferenceMap.map, Keyed.mapValues]

def Change.bearing : Change → Option (Word → Word)
  | .set (.string _) => none
  | .set (.array _) => none
  | .set (.object _) => none
  | .text edit => some edit.follow
  | .array edit => some edit.follow
  | _ => some id

namespace Arena

variable {arena before middle after : Arena} {created : List NodeId}

theorem find?_followReferences (id : NodeId) (follow : Word → Word) (other : NodeId) :
    Keyed.find? other (arena.followReferences id follow).references =
      if other = id then (Keyed.find? id arena.references).map (ReferenceMap.map follow)
      else Keyed.find? other arena.references := by
  unfold followReferences
  split
  · rename_i references found
    rw [found]
    exact Keyed.find?_insert id other _ arena.references
  · rename_i absent
    rw [absent]
    split
    · rename_i here
      rw [here, absent]
      rfl
    · rfl

def Named (arena : Arena) : Prop :=
  ∀ id node, arena.node? id = some node → node.id = id

/-- Every node that is left, unless it was created, was there before with the references that it has now,
and there are references for no other nodes than before. -/
structure Spares (created : List NodeId) (before after : Arena) : Prop where
  named : after.Named
  kept : ∀ id, id ∉ created → after.node? id ≠ none → before.node? id ≠ none ∧
    Keyed.find? id after.references = Keyed.find? id before.references
  fewer : ∀ id, Keyed.find? id after.references ≠ none → Keyed.find? id before.references ≠ none

theorem named_setNode (named : arena.Named) (node : Node) : (arena.setNode node).Named := by
  intro id found stored
  rw [node?_setNode] at stored
  split at stored
  · rename_i here
    cases stored
    exact here.symm
  · exact named id found stored

theorem named_attachItems_of {values : List DataValue} (id : NodeId)
    (each : ∀ value ∈ values, ∀ arena, Named arena → (attach (some id) value arena).Named)
    (named : arena.Named) : (attachItems id values arena).Named := by
  induction values generalizing arena with
  | nil => exact named
  | cons value rest ih =>
      exact ih (fun child listed => each child (List.mem_cons_of_mem _ listed))
        (each value List.mem_cons_self arena named)

theorem named_attach (parent : Option NodeId) (value : DataValue) (named : arena.Named) :
    (attach parent value arena).Named := by
  induction value using DataValue.induction generalizing parent arena with
  | step value ih =>
      rw [attach_eq]
      exact named_setNode
        (named_attachItems_of value.id (fun child listed _ => ih child listed (some value.id)) named) _

namespace Spares

theorem refl (created : List NodeId) (named : arena.Named) : Spares created arena arena :=
  ⟨named, fun _ _ present => ⟨present, rfl⟩, fun _ present => present⟩

theorem trans (first : Spares created before middle) (second : Spares created middle after) :
    Spares created before after where
  named := second.named
  kept := by
    intro id old present
    obtain ⟨inMiddle, same⟩ := second.kept id old present
    obtain ⟨inBefore, sameBefore⟩ := first.kept id old inMiddle
    exact ⟨inBefore, same.trans sameBefore⟩
  fewer := fun id present => first.fewer id (second.fewer id present)

variable (spares : Spares created before arena)

include spares

theorem setData (id : NodeId) (data : NodeData) :
    Spares created before (arena.setData id data) := by
  unfold Arena.setData
  split
  · rename_i node found
    have named := spares.named id node found
    refine spares.trans ⟨named_setNode spares.named _, fun other _ present => ⟨?_, rfl⟩,
      fun _ present => present⟩
    rw [node?_setNode] at present
    split at present
    · rename_i here
      rw [here]
      exact Option.ne_none_iff_exists'.mpr ⟨node, named.symm ▸ found⟩
    · exact present
  · exact spares

theorem attachItems {values : List DataValue}
    (distinct : (values.flatMap DataValue.nodeIds).Nodup)
    (listed : ∀ id ∈ values.flatMap DataValue.nodeIds, id ∈ created) (id : NodeId) :
    Spares created before (Arena.attachItems id values arena) := by
  have adds := adds_attachItems distinct id arena
  refine spares.trans ⟨named_attachItems_of id (fun value _ _ => named_attach _ value) spares.named,
    fun other old present => ?_, fun _ => by rw [adds.references]; exact fun present => present⟩
  rw [adds.others other fun new => old (listed other new)] at present
  exact ⟨present, by rw [adds.references]⟩

theorem forget (id : NodeId) : Spares created before (arena.forget id) := by
  refine spares.trans ⟨fun other node found => ?_, fun other _ present => ?_, fun other present => ?_⟩
  · rw [node?_forget] at found
    split at found
    · cases found
    · exact spares.named other node found
  · rw [node?_forget] at present
    rw [references_forget]
    split at present
    · exact absurd rfl present
    · rename_i elsewhere
      rw [if_neg elsewhere]
      exact ⟨present, rfl⟩
  · rw [references_forget] at present
    split at present
    · exact absurd rfl present
    · exact present

omit spares in
theorem foldl (step : Arena × List ChangeEvent → PathElement × NodeId → Arena × List ChangeEvent)
    (each : ∀ reached child, Spares created before reached.1 →
      Spares created before (step reached child).1)
    {children : List (PathElement × NodeId)} {reached : Arena × List ChangeEvent}
    (spares : Spares created before reached.1) :
    Spares created before (children.foldl step reached).1 := by
  induction children generalizing reached with
  | nil => exact spares
  | cons child rest ih => exact ih (each reached child spares)

theorem detachBelow (origin : Origin) (depth : Nat) (path : Path) (id : NodeId) :
    Spares created before (Arena.detachBelow origin depth path id arena).1 := by
  induction depth generalizing path id arena with
  | zero => exact spares
  | succ depth ih =>
      unfold Arena.detachBelow
      split
      · exact spares
      · exact foldl
          (fun reached child =>
            let next := Arena.detachBelow origin depth (path.child child.1) child.2 reached.1
            (next.1, reached.2 ++ next.2))
          (fun _ child reachedSpares => ih reachedSpares (path.child child.1) child.2)
          (spares.forget id)

theorem detach (origin : Origin) (path : Path) (id : NodeId) :
    Spares created before (arena.detach origin path id).1 :=
  spares.detachBelow origin arena.size path id

theorem detachChildren (origin : Origin) (path : Path) (data : NodeData) :
    Spares created before (arena.detachChildren origin path data).1 :=
  foldl
    (fun reached child =>
      let next := reached.1.detach origin (path.child child.1) child.2
      (next.1, reached.2 ++ next.2))
    (fun _ child reachedSpares => reachedSpares.detach origin (path.child child.1) child.2) spares

end Spares

structure Bears (created : List NodeId) (site : NodeId) (bearing : Option (Word → Word))
    (before after : Arena) : Prop where
  kept : ∀ id, id ∉ created → after.node? id ≠ none → Keyed.find? id after.references =
    if id = site then
      bearing.bind fun follow => (Keyed.find? id before.references).map (ReferenceMap.map follow)
    else Keyed.find? id before.references
  fewer : ∀ id, Keyed.find? id after.references ≠ none → Keyed.find? id before.references ≠ none

namespace Spares

variable (spares : Spares created before after) (site : NodeId)

include spares

theorem follow (follow : Word → Word) :
    Bears created site (some follow) before (after.followReferences site follow) := by
  refine ⟨fun id old present => ?_, fun id present => spares.fewer id (find?_followReferences_ne_none present)⟩
  rw [node?, nodes_followReferences, ← node?] at present
  obtain ⟨-, same⟩ := spares.kept id old present
  rw [find?_followReferences, same]
  split
  · rename_i here
    rw [← here, same]
    rfl
  · rfl

theorem drop : Bears created site none before (after.dropReferences site) := by
  refine ⟨fun id old present => ?_, fun id present => spares.fewer id (find?_dropReferences_ne_none present)⟩
  rw [dropReferences, Keyed.find?_erase, (spares.kept id old present).2]
  rfl

theorem leave : Bears created site (some id) before after := by
  refine ⟨fun own old present => ?_, spares.fewer⟩
  rw [(spares.kept own old present).2]
  split
  · cases Keyed.find? own before.references <;> simp
  · rfl

end Spares

section

variable {site : Site} {result : Arena × List ChangeEvent} (named : arena.Named)

include named

theorem bears_editText {text : String} {edit : TextEdit}
    (succeeds : arena.editText site text edit = .ok result) :
    Bears [] site.id (some edit.follow) arena result.1 := by
  have start := Spares.refl [] named
  cases edit with
  | insert index value =>
      simp only [editText] at succeeds
      split at succeeds
      · exact absurd succeeds (by simp)
      · cases succeeds
        exact (start.setData _ _).follow site.id _
  | remove index length =>
      simp only [editText] at succeeds
      split at succeeds
      · exact absurd succeeds (by simp)
      · split at succeeds
        · exact absurd succeeds (by simp)
        · cases succeeds
          exact (start.setData _ _).follow site.id _

theorem bears_editArray {children : List NodeId} {edit : ArrayEdit}
    (succeeds : arena.editArray site children edit = .ok result) :
    Bears (edit.values.flatMap DataValue.nodeIds) site.id (some edit.follow) arena result.1 := by
  have start := Spares.refl (edit.values.flatMap DataValue.nodeIds) named
  cases edit with
  | insert index value =>
      simp only [editArray] at succeeds
      split at succeeds
      · exact absurd succeeds (by simp)
      · obtain ⟨_, checked, same⟩ := Fallible.bind_eq_ok_iff.mp succeeds
        have fresh := checkNew_eq_ok_iff.mp checked
        cases same
        exact ((start.attachItems fresh.1 (fun _ listed => listed) site.id).setData _ _).follow
          site.id _
  | remove index =>
      simp only [editArray] at succeeds
      split at succeeds
      · exact absurd succeeds (by simp)
      · cases succeeds
        exact ((start.setData _ _).detach _ _ _).follow site.id _
  | replace index value =>
      simp only [editArray] at succeeds
      split at succeeds
      · exact absurd succeeds (by simp)
      · obtain ⟨_, checked, same⟩ := Fallible.bind_eq_ok_iff.mp succeeds
        have fresh := checkNew_eq_ok_iff.mp checked
        cases same
        exact (((start.attachItems fresh.1 (fun _ listed => listed) site.id).setData _ _).detach
          _ _ _).leave site.id
  | move source target =>
      simp only [editArray] at succeeds
      split at succeeds
      · exact absurd succeeds (by simp)
      · split at succeeds
        · exact absurd succeeds (by simp)
        · cases succeeds
          exact (start.setData _ _).follow site.id _

theorem bears_editProperty {children : List (String × NodeId)} {edit : PropertyEdit}
    (succeeds : arena.editProperty site children edit = .ok result) :
    Bears (edit.values.flatMap DataValue.nodeIds) site.id (some id) arena result.1 := by
  have start := Spares.refl (edit.values.flatMap DataValue.nodeIds) named
  cases edit with
  | add key value =>
      simp only [editProperty] at succeeds
      split at succeeds
      · exact absurd succeeds (by simp)
      · obtain ⟨_, checked, same⟩ := Fallible.bind_eq_ok_iff.mp succeeds
        have fresh := checkNew_eq_ok_iff.mp checked
        cases same
        exact ((start.attachItems fresh.1 (fun _ listed => listed) site.id).setData _ _).leave
          site.id
  | set key value =>
      simp only [editProperty] at succeeds
      split at succeeds
      · exact absurd succeeds (by simp)
      · obtain ⟨_, checked, same⟩ := Fallible.bind_eq_ok_iff.mp succeeds
        have fresh := checkNew_eq_ok_iff.mp checked
        cases same
        exact (((start.detach _ _ _).attachItems fresh.1 (fun _ listed => listed) site.id).setData
          _ _).leave site.id
  | remove key =>
      simp only [editProperty] at succeeds
      split at succeeds
      · exact absurd succeeds (by simp)
      · cases succeeds
        exact ((start.setData _ _).detach _ _ _).leave site.id

theorem bears_setContents {data : NodeData} {contents : Contents}
    (succeeds : arena.setContents site data contents = .ok result) :
    Bears (contents.values.flatMap DataValue.nodeIds) site.id (Change.set contents).bearing arena
      result.1 := by
  have start := Spares.refl (contents.values.flatMap DataValue.nodeIds) named
  cases contents with
  | string text =>
      cases succeeds
      exact (start.setData _ _).drop site.id
  | array values =>
      obtain ⟨_, checked, same⟩ := Fallible.bind_eq_ok_iff.mp succeeds
      have fresh := checkNew_eq_ok_iff.mp checked
      cases same
      exact ((((start.setData _ _).detachChildren _ _ _).attachItems fresh.1
        (fun _ listed => listed) site.id).setData _ _).drop site.id
  | object values =>
      obtain ⟨_, checked, same⟩ := Fallible.bind_eq_ok_iff.mp succeeds
      have fresh := checkNew_eq_ok_iff.mp checked
      cases same
      rw [attachMembers_eq]
      exact ((((start.setData _ _).detachChildren _ _ _).attachItems fresh.1
        (fun _ listed => listed) site.id).setData _ _).drop site.id
  | _ =>
      cases succeeds
      exact (start.setData _ _).leave site.id

theorem bears_change {data : NodeData} {change : Change}
    (succeeds : arena.change site data change = .ok result) :
    Bears change.createdIds site.id change.bearing arena result.1 := by
  cases change with
  | set contents => exact bears_setContents named succeeds
  | text edit =>
      cases data with
      | string text => exact bears_editText named succeeds
      | _ => exact absurd succeeds (by simp [Arena.change])
  | array edit =>
      cases data with
      | array children => exact bears_editArray named succeeds
      | _ => exact absurd succeeds (by simp [Arena.change])
  | property edit =>
      cases data with
      | object children => exact bears_editProperty named succeeds
      | _ => exact absurd succeeds (by simp [Arena.change])
  | addNumber amount =>
      cases data with
      | number value =>
          cases succeeds
          exact ((Spares.refl [] named).setData _ _).leave site.id
      | _ => exact absurd succeeds (by simp [Arena.change])

end

/-! References after one edit. -/

namespace Represents

variable {value inner : DataValue} {parent : Option NodeId} {origin : Origin} {edit : Edit}
  {result : Arena × List ChangeEvent} (represents : arena.Represents value)
  (notDetached : arena.isDetached edit.target = false)
  (succeeds : arena.applyEdit origin edit = .ok result)
  (admits : arena.Admits value edit parent inner)

include represents notDetached succeeds admits

theorem rewires_applyEdit :
    Rewires arena parent inner (edit.change.applyTo inner) (edit.change.discarded inner)
      edit.change.createdValues result.1 := by
  obtain ⟨node, path, edited, found, kind, -, changed, rfl⟩ :=
    (applyEdit_eq_ok_iff notDetached).mp succeeds
  have innerHolds := represents.occurs_holds admits.occurs
  obtain ⟨-, stored⟩ := attached_eq_ok_iff.mp found
  rw [← admits.target] at changed stored
  rw [innerHolds.root, Option.some.injEq] at stored
  subst stored
  exact (fits_of_change innerHolds (represents.distinct.sublist admits.occurs.sublist_nodeIds)
    admits.fits.kind changed).2.2

/-- The references of the target are taken along or dropped, those of nodes that leave go with them. -/
theorem references_applyEdit (changeOrdered : edit.change.Ordered) (id : NodeId) :
    Keyed.find? id result.1.references =
      if id ∈ (edit.change.discarded inner).flatMap DataValue.nodeIds then none
      else if id = edit.target then edit.change.bearing.bind fun follow =>
        (Keyed.find? id arena.references).map (ReferenceMap.map follow)
      else Keyed.find? id arena.references := by
  obtain ⟨-, edited, -⟩ := represents.applyEdit changeOrdered notDetached succeeds
  obtain ⟨node, path, changed, -, -, -, applied, rfl⟩ :=
    (applyEdit_eq_ok_iff notDetached).mp succeeds
  have bears := bears_change represents.wellFormed.named applied
  have listedAfter := admits.mem_nodeIds_iff represents id
  have targetListed : edit.target ∈ value.nodeIds := admits.target ▸ admits.occurs.id_mem
  have absentBefore (unlisted : id ∉ value.nodeIds) : Keyed.find? id arena.references = none :=
    not_not.mp fun present => unlisted (represents.references id present)
  have absentAfter (unlisted : Keyed.find? id arena.references = none) :
      Keyed.find? id changed.1.references = none :=
    not_not.mp fun present => bears.fewer id present unlisted
  by_cases gone : id ∈ (edit.change.discarded inner).flatMap DataValue.nodeIds
  · rw [if_pos gone]
    exact not_not.mp fun present => (listedAfter.mp (edited.references id present)).2 gone
  · rw [if_neg gone]
    -- a node that is left was there before or has been created; only the former can have references
    by_cases old : id ∈ value.nodeIds
    · refine bears.kept id (fun created => admits.fresh.notMem represents.holds old created) ?_
      exact edited.holds.node?_ne_none (listedAfter.mpr ⟨Or.inr old, gone⟩)
    · rw [if_neg fun here : id = edit.target => old (here ▸ targetListed), absentBefore old]
      exact absentAfter (absentBefore old)

end Represents

end Arena

end SharedDocument
