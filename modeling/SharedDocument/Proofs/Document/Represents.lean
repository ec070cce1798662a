import SharedDocument.Proofs.Document.Editing

/-! An arena represents a value: it stores the records of the value's nodes and no others. Applying
an edit to the arena edits the value at one node. Detached ids are kept apart from this; an id that is
detached although it has a node only blocks the ways to that node. -/

namespace SharedDocument.Arena

open DataValue (Occurs Within)

structure Represents (arena : Arena) (value : DataValue) : Prop where
  holds : arena.Holds none value
  distinct : value.nodeIds.Nodup
  ordered : value.Ordered
  only : ∀ id, arena.node? id ≠ none → id ∈ value.nodeIds
  references : ∀ id, Keyed.find? id arena.references ≠ none → id ∈ value.nodeIds
  sorted : Keyed.Increasing arena.nodes

variable {arena after : Arena} {value : DataValue}

namespace Represents

theorem mem_iff (represents : arena.Represents value) (id : NodeId) :
    id ∈ value.nodeIds ↔ arena.node? id ≠ none :=
  ⟨represents.holds.node?_ne_none, represents.only id⟩

theorem occurs_holds (represents : arena.Represents value) {parent : Option NodeId}
    {inner : DataValue} (occurs : Occurs none value parent inner) : arena.Holds parent inner :=
  fun _ _ within => represents.holds _ _ (occurs.trans within)

theorem attach (distinct : value.nodeIds.Nodup) (ordered : value.Ordered) :
    (Arena.attach none value .empty).Represents value := by
  have adds := adds_attach distinct none .empty
  refine ⟨adds.holds value List.mem_cons_self, distinct, ordered, ?_, ?_, ?_⟩
  · intro id present
    by_contra absent
    exact present (adds.others id (by simpa using absent))
  · intro id present
    rw [adds.references] at present
    exact absurd rfl present
  · exact adds.sorted List.Pairwise.nil

theorem rewires (represents : arena.Represents value) {parent : Option NodeId} {inner : DataValue}
    (occurs : Occurs none value parent inner) {change : Change} (fits : change.Fits inner)
    (fresh : arena.Fresh change.createdIds) (changeOrdered : change.Ordered)
    (rewires : Rewires arena parent inner (change.applyTo inner) (change.discarded inner)
      change.createdValues after) :
    after.Represents (value.editAt inner.id change.applyTo) := by
  have distinct := represents.distinct
  have keys := (represents.ordered.occurs occurs).keysIncrease
  have apart : ∀ id ∈ change.createdIds, id ∉ value.nodeIds :=
    fun id created listed => fresh.notMem represents.holds listed created
  have editedIds := Change.mem_nodeIds_editAt_iff distinct occurs keys fits fresh.1 apart
  have discarded {id : NodeId} (gone : id ∈ (change.discarded inner).flatMap DataValue.nodeIds) :
      id ∈ inner.nodeIds ∧ id ≠ inner.id := Change.discardedIds_subset distinct occurs gone
  have untouched {id : NodeId} (listed : id ∈ value.nodeIds) (elsewhere : id ≠ inner.id)
      (kept : id ∉ (change.discarded inner).flatMap DataValue.nodeIds) :
      after.node? id = arena.node? id :=
    rewires.others id elsewhere kept fun created => apart id created listed
  refine ⟨?_, Change.nodup_editAt distinct occurs keys fits fresh.1 apart, ?_, ?_, ?_,
    rewires.sorted represents.sorted⟩
  · intro otherParent other otherOccurs
    rcases DataValue.occurs_editAt distinct otherOccurs with
      ⟨old, oldOccurs, elsewhere, rfl, outside⟩ | ⟨siteParent, site, siteOccurs, here, within⟩
    · have data : (old.editAt inner.id change.applyTo).data = old.data := by
        rw [DataValue.editAt_of_ne elsewhere]
        exact DataValue.data_mapChildren fun child _ =>
          DataValue.id_editAt (Change.id_applyTo change) child
      have kept : old.id ∉ (change.discarded inner).flatMap DataValue.nodeIds :=
        fun gone => outside parent inner occurs rfl (discarded gone).1
      rw [DataValue.node, data, DataValue.id_editAt (Change.id_applyTo change),
        untouched oldOccurs.id_mem elsewhere kept]
      exact represents.holds _ _ oldOccurs
    · obtain ⟨rfl, rfl⟩ := siteOccurs.unique distinct occurs here
      rcases within.eq_or_deeper with ⟨rfl, rfl⟩ | ⟨child, listed, deeper⟩
      · simpa [DataValue.node] using rewires.site
      · rw [Change.id_applyTo] at deeper
        rcases Change.mem_childValues_applyTo listed with old | created
        · have oldOccurs := (occurs.child old).trans deeper
          have kept := Change.kept_apart distinct occurs keys fits fresh.1 apart listed deeper.id_mem
          have elsewhere : other.id ≠ site.id := by
            intro same
            apply DataValue.id_notMem_child (distinct.sublist occurs.sublist_nodeIds) old
            exact same ▸ deeper.id_mem
          rw [untouched oldOccurs.id_mem elsewhere kept]
          exact represents.holds _ _ oldOccurs
        · exact rewires.comeValues child created _ _ deeper
  · exact DataValue.ordered_editAt represents.ordered
      fun _ ordered _ => Change.ordered_applyTo ordered changeOrdered
  · intro id present
    have notGone : id ∉ (change.discarded inner).flatMap DataValue.nodeIds :=
      fun gone => present (rewires.goneIds id gone)
    refine (editedIds id).mpr ⟨?_, notGone⟩
    by_cases created : id ∈ change.createdIds
    · exact Or.inl created
    · by_cases here : id = inner.id
      · exact Or.inr (here ▸ occurs.id_mem)
      · rw [rewires.others id here notGone created] at present
        exact Or.inr (represents.only id present)
  · intro id present
    obtain ⟨notGone, before⟩ := rewires.references id present
    exact (editedIds id).mpr ⟨Or.inr (represents.references id before), notGone⟩

end Represents

/-- The represented value depends on the nodes and the references only. -/
theorem Represents.congr (represents : arena.Represents value) (nodes : after.nodes = arena.nodes)
    (references : ∀ id, Keyed.find? id after.references ≠ none → id ∈ value.nodeIds) :
    after.Represents value := by
  have same (id : NodeId) : after.node? id = arena.node? id := by rw [node?, nodes, node?]
  refine ⟨represents.holds.congr fun id _ => same id, represents.distinct, represents.ordered, ?_,
    references, ?_⟩
  · intro id present
    rw [same] at present
    exact represents.only id present
  · rw [nodes]
    exact represents.sorted

theorem Represents.markSuperseded (represents : arena.Represents value) (ids : List NodeId) :
    (arena.markSuperseded ids).Represents value :=
  represents.congr (nodes_markSuperseded ids) (by
    rw [references_markSuperseded]
    exact represents.references)

/-! One edit. -/

structure Admits (arena : Arena) (value : DataValue) (edit : Edit) (parent : Option NodeId)
    (inner : DataValue) : Prop where
  occurs : Occurs none value parent inner
  target : inner.id = edit.target
  reachable : ∀ ancestor, value.Within ancestor edit.target → arena.isDetached ancestor = false
  fits : edit.change.Fits inner
  fresh : arena.Fresh edit.change.createdIds

theorem Admits.mem_nodeIds_iff {edit : Edit} {parent : Option NodeId} {inner : DataValue}
    (admits : arena.Admits value edit parent inner) (represents : arena.Represents value)
    (id : NodeId) :
    id ∈ (value.editAt edit.target edit.change.applyTo).nodeIds ↔
      (id ∈ edit.change.createdIds ∨ id ∈ value.nodeIds) ∧
        id ∉ (edit.change.discarded inner).flatMap DataValue.nodeIds := by
  obtain ⟨occurs, target, -, fits, fresh⟩ := admits
  rw [← target]
  exact Change.mem_nodeIds_editAt_iff represents.distinct occurs
    (represents.ordered.occurs occurs).keysIncrease fits fresh.1
    (fun _ created listed => fresh.notMem represents.holds listed created) id

theorem Admits.notMem_discarded {edit : Edit} {parent : Option NodeId} {inner : DataValue}
    (admits : arena.Admits value edit parent inner) (represents : arena.Represents value)
    {id : NodeId} (created : id ∈ edit.change.createdIds) :
    id ∉ (edit.change.discarded inner).flatMap DataValue.nodeIds := by
  intro gone
  have inInner := (Change.discardedIds_subset represents.distinct admits.occurs gone).1
  exact admits.fresh.notMem represents.holds (admits.occurs.sublist_nodeIds.subset inInner) created

theorem applyEdit_skip {sessionId : String} {edit : Edit}
    (detached : arena.isDetached edit.target = true) :
    arena.applyEdit (.peer sessionId) edit =
      .ok (edit.change.createdIds.foldl addDetached arena, []) := by
  simp [applyEdit, detached]

theorem Represents.skip (represents : arena.Represents value) (ids : List NodeId) :
    (ids.foldl addDetached arena).Represents value :=
  represents.congr (nodes_foldl_addDetached ids) (by
    rw [references_foldl_addDetached]
    exact represents.references)

theorem applyEdit_eq_ok_iff {origin : Origin} {edit : Edit} {result : Arena × List ChangeEvent}
    (notDetached : arena.isDetached edit.target = false) :
    arena.applyEdit origin edit = .ok result ↔
      ∃ node path edited,
        arena.attached edit.target = .ok node ∧ node.data.kind = edit.kind.nodeKind ∧
        arena.pathOf edit.target = .ok path ∧
        arena.change ⟨origin, edit.target, path⟩ node.data edit.change = .ok edited ∧
        result = (edited.1, edited.2 ++ [origin.event edit.target path (.applied edit.kind)
          (arena.json edit.target) (edited.1.json edit.target)]) := by
  unfold applyEdit
  simp only [notDetached, Bool.false_eq_true, if_false, Fallible.bind_eq_ok_iff]
  constructor
  · rintro ⟨node, found, rest⟩
    split at rest
    · cases rest
    · rename_i kind
      simp only [Fallible.bind_eq_ok_iff, Fallible.pure_eq_ok_iff] at rest
      obtain ⟨path, pathFound, edited, changed, same⟩ := rest
      exact ⟨node, path, edited, found, not_not.mp kind, pathFound, changed, same.symm⟩
  · rintro ⟨node, path, edited, found, kind, pathFound, changed, same⟩
    refine ⟨node, found, ?_⟩
    rw [if_neg (not_not.mpr kind)]
    simp only [Fallible.bind_eq_ok_iff, Fallible.pure_eq_ok_iff]
    exact ⟨path, pathFound, edited, changed, same.symm⟩

namespace Represents

variable (represents : arena.Represents value) {edit : Edit}

include represents

theorem applyEdit {origin : Origin} {result : Arena × List ChangeEvent}
    (changeOrdered : edit.change.Ordered) (notDetached : arena.isDetached edit.target = false)
    (succeeds : arena.applyEdit origin edit = .ok result) :
    (∃ parent inner, arena.Admits value edit parent inner) ∧
      result.1.Represents (value.editAt edit.target edit.change.applyTo) ∧
      ∀ id, result.1.isDetached id = true ↔ arena.isDetached id = true ∨
        (id ∈ value.nodeIds ∧ id ∉ (value.editAt edit.target edit.change.applyTo).nodeIds) := by
  obtain ⟨node, path, edited, found, kind, pathFound, changed, rfl⟩ :=
    (applyEdit_eq_ok_iff notDetached).mp succeeds
  obtain ⟨-, stored⟩ := attached_eq_ok_iff.mp found
  obtain ⟨parent, inner, occurs, target⟩ :=
    (DataValue.mem_nodeIds_iff none value edit.target).mp (represents.only _ (by simp [stored]))
  rw [← target] at pathFound changed stored
  have innerHolds := represents.occurs_holds occurs
  have innerDistinct := represents.distinct.sublist occurs.sublist_nodeIds
  rw [innerHolds.root, Option.some.injEq] at stored
  subst stored
  obtain ⟨fits, fresh, rewires⟩ :=
    fits_of_change innerHolds innerDistinct ((DataValue.kind_data inner).symm.trans kind) changed
  have reachable :=
    (pathOf_isOk_iff represents.holds represents.distinct occurs).mp ⟨path, pathFound⟩
  have edits := represents.rewires occurs fits fresh changeOrdered rewires
  rw [target] at reachable edits
  have admits : arena.Admits value edit parent inner := ⟨occurs, target, reachable, fits, fresh⟩
  refine ⟨⟨parent, inner, admits⟩, edits, ?_⟩
  intro id
  rw [rewires.detached, admits.mem_nodeIds_iff represents]
  constructor
  · rintro (gone | before)
    · have inInner := (Change.discardedIds_subset represents.distinct occurs gone).1
      exact Or.inr ⟨occurs.sublist_nodeIds.subset inInner, fun kept => kept.2 gone⟩
    · exact Or.inl before
  · rintro (before | ⟨listed, lost⟩)
    · exact Or.inr before
    · by_contra neither
      exact lost ⟨Or.inr listed, fun gone => neither (Or.inl gone)⟩

theorem applyEdit_isOk (origin : Origin) {parent : Option NodeId} {inner : DataValue}
    (admits : arena.Admits value edit parent inner) :
    ∃ result, arena.applyEdit origin edit = .ok result := by
  obtain ⟨occurs, target, reachable, fits, fresh⟩ := admits
  have notDetached := reachable edit.target (Within.self (target ▸ occurs.id_mem))
  rw [← target] at reachable notDetached
  obtain ⟨path, pathFound⟩ :=
    (pathOf_isOk_iff represents.holds represents.distinct occurs).mpr reachable
  obtain ⟨edited, changed⟩ := change_isOk ⟨origin, edit.target, path⟩ fits fresh
  have found := (attached_isOk_iff (represents.occurs_holds occurs)).mpr notDetached
  rw [target] at pathFound found notDetached
  have kind : inner.data.kind = edit.kind.nodeKind := (DataValue.kind_data inner).trans fits.kind
  exact ⟨_, (applyEdit_eq_ok_iff notDetached).mpr
    ⟨inner.node parent, path, edited, found, kind, pathFound, changed, rfl⟩⟩

end Represents

end SharedDocument.Arena
