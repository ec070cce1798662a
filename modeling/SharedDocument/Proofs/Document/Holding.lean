import SharedDocument.Proofs.Document.Arena
import SharedDocument.Proofs.Value

/-! The nodes of a value in an arena. An arena holds a value below a parent if it stores the record of
every node of the value. Attaching a value makes an arena hold it, detaching it removes exactly
its nodes, and a walk down from a node that is held reads the value back. -/

namespace SharedDocument

namespace DataValue

def data : DataValue → NodeData
  | .object _ children => .object (Keyed.mapValues id children)
  | .array _ children => .array (children.map id)
  | .string _ value => .string value
  | .number _ value => .number value
  | .boolean _ value => .boolean value
  | .date _ value => .date value
  | .null _ => .null

def node (parent : Option NodeId) (value : DataValue) : Node :=
  ⟨value.id, parent, value.data⟩

@[simp] theorem kind_data (value : DataValue) : value.data.kind = value.kind := by
  cases value <;> rfl

theorem children_data (value : DataValue) :
    value.data.children.map Prod.snd = value.childValues.map id := by
  cases value with
  | object own children => simp [data, NodeData.children, childValues, Keyed.mapValues]
  | array own children =>
      simp only [data, NodeData.children, childValues, List.map_map]
      calc (children.map id).zipIdx.map (Prod.snd ∘ fun entry => (PathElement.index entry.2, entry.1))
          = (children.map id).zipIdx.map Prod.fst := rfl
        _ = children.map id := List.zipIdx_map_fst 0 (children.map id)
  | _ => rfl

/-- What a node stores does not depend on what the values below it hold. -/
theorem data_mapChildren {transform : DataValue → DataValue} {value : DataValue}
    (keepsId : ∀ child ∈ value.childValues, (transform child).id = child.id) :
    (value.mapChildren transform).data = value.data := by
  cases value with
  | object own children =>
      simp only [childValues, List.mem_map] at keepsId
      simp only [mapChildren, data, Keyed.mapValues, List.map_map, NodeData.object.injEq]
      apply List.map_congr_left
      intro entry listed
      simp [keepsId entry.2 ⟨entry, listed, rfl⟩]
  | array own children =>
      simp only [mapChildren, data, List.map_map, NodeData.array.injEq]
      exact List.map_congr_left keepsId
  | _ => rfl

end DataValue

namespace Arena

variable {arena : Arena} {parent : Option NodeId} {value : DataValue}

def Holds (arena : Arena) (parent : Option NodeId) (value : DataValue) : Prop :=
  ∀ innerParent inner, DataValue.Occurs parent value innerParent inner →
    arena.node? inner.id = some (inner.node innerParent)

namespace Holds

theorem root (holds : arena.Holds parent value) :
    arena.node? value.id = some (value.node parent) :=
  holds parent value .here

theorem child (holds : arena.Holds parent value) {child : DataValue}
    (listed : child ∈ value.childValues) : arena.Holds (some value.id) child :=
  fun innerParent inner occurs => holds innerParent inner (.deeper listed occurs)

theorem intro (root : arena.node? value.id = some (value.node parent))
    (children : ∀ child ∈ value.childValues, arena.Holds (some value.id) child) :
    arena.Holds parent value := by
  intro innerParent inner occurs
  rcases occurs.eq_or_deeper with ⟨rfl, rfl⟩ | ⟨child, listed, deeper⟩
  · exact root
  · exact children child listed innerParent inner deeper

theorem node?_ne_none (holds : arena.Holds parent value) {id : NodeId}
    (listed : id ∈ value.nodeIds) : arena.node? id ≠ none := by
  obtain ⟨innerParent, inner, occurs, rfl⟩ := (DataValue.mem_nodeIds_iff parent value id).mp listed
  simp [holds innerParent inner occurs]

theorem congr {other : Arena} (holds : arena.Holds parent value)
    (same : ∀ id ∈ value.nodeIds, other.node? id = arena.node? id) : other.Holds parent value := by
  intro innerParent inner occurs
  rw [same inner.id occurs.id_mem]
  exact holds innerParent inner occurs

theorem length_le_size (holds : arena.Holds parent value) (distinct : value.nodeIds.Nodup) :
    value.nodeIds.length ≤ arena.size := by
  have stored : value.nodeIds ⊆ arena.nodes.map Prod.fst := by
    intro id listed
    obtain ⟨node, found⟩ := Option.ne_none_iff_exists'.mp (holds.node?_ne_none listed)
    exact List.mem_map_of_mem (Keyed.mem_of_find? found)
  calc value.nodeIds.length ≤ (arena.nodes.map Prod.fst).length :=
        (List.subperm_of_subset distinct stored).length_le
    _ = arena.size := List.length_map ..

end Holds

/-! Attaching. -/

theorem attachMembers_eq (id : NodeId) (children : List (String × DataValue)) (arena : Arena) :
    attachMembers id children arena = attachItems id (children.map Prod.snd) arena := by
  induction children generalizing arena with
  | nil => rfl
  | cons entry rest ih => exact ih _

theorem attach_eq (parent : Option NodeId) (value : DataValue) (arena : Arena) :
    attach parent value arena =
      (attachItems value.id value.childValues arena).setNode (value.node parent) := by
  cases value with
  | object id children =>
      rw [attach, attachMembers_eq]
      rfl
  | _ => rfl

structure Adds (before : Arena) (parent : Option NodeId) (values : List DataValue)
    (after : Arena) : Prop where
  holds : ∀ value ∈ values, after.Holds parent value
  others : ∀ id, id ∉ values.flatMap DataValue.nodeIds → after.node? id = before.node? id
  detached : after.detached = before.detached
  references : after.references = before.references
  sorted : Keyed.Increasing before.nodes → Keyed.Increasing after.nodes

theorem adds_attachItems_of {id : NodeId} {values : List DataValue}
    (each : ∀ value ∈ values, ∀ arena, Adds arena (some id) [value] (attach (some id) value arena))
    (distinct : (values.flatMap DataValue.nodeIds).Nodup) (arena : Arena) :
    Adds arena (some id) values (attachItems id values arena) := by
  induction values generalizing arena with
  | nil => exact ⟨by simp, fun _ _ => rfl, rfl, rfl, fun sorted => sorted⟩
  | cons value rest ih =>
      rw [List.flatMap_cons, List.nodup_append'] at distinct
      obtain ⟨_, restDistinct, apart⟩ := distinct
      have first := each value List.mem_cons_self arena
      have later := ih (fun child listed => each child (List.mem_cons_of_mem _ listed)) restDistinct
        (attach (some id) value arena)
      refine ⟨?_, ?_, later.detached.trans first.detached,
        later.references.trans first.references, fun sorted => later.sorted (first.sorted sorted)⟩
      · intro child listed
        rcases List.mem_cons.mp listed with rfl | inRest
        · refine (first.holds child List.mem_cons_self).congr fun own ownListed => ?_
          exact later.others own (apart ownListed)
        · exact later.holds child inRest
      · intro other absent
        rw [List.flatMap_cons, List.mem_append, not_or] at absent
        exact (later.others other absent.2).trans (first.others other (by simpa using absent.1))

theorem adds_attach {value : DataValue} (distinct : value.nodeIds.Nodup) (parent : Option NodeId)
    (arena : Arena) : Adds arena parent [value] (attach parent value arena) := by
  induction value using DataValue.induction generalizing parent arena with
  | step value ih =>
      rw [attach_eq]
      have children := adds_attachItems_of
        (fun child listed => ih child listed (DataValue.nodup_child distinct listed) (some value.id))
        (DataValue.childValues_nodup distinct) arena
      refine ⟨?_, ?_, children.detached, children.references,
        fun sorted => increasing_setNode _ (children.sorted sorted)⟩
      · intro other listed
        rw [List.mem_singleton.mp listed]
        refine .intro ?_ ?_
        · exact (node?_setNode _ _).trans (if_pos rfl)
        · intro child below
          refine (children.holds child below).congr fun own ownListed => ?_
          refine (node?_setNode _ _).trans (if_neg ?_)
          rintro rfl
          exact DataValue.id_notMem_child distinct below ownListed
      · intro id absent
        rw [List.flatMap_singleton, DataValue.nodeIds_eq, List.mem_cons, not_or] at absent
        exact ((node?_setNode _ _).trans (if_neg absent.1)).trans (children.others id absent.2)

theorem adds_attachItems {values : List DataValue}
    (distinct : (values.flatMap DataValue.nodeIds).Nodup) (id : NodeId) (arena : Arena) :
    Adds arena (some id) values (attachItems id values arena) :=
  adds_attachItems_of
    (fun _ listed => adds_attach (distinct.sublist (DataValue.sublist_flatMap_of_mem listed)) _)
    distinct arena

/-! Detaching. -/

structure Drops (before : Arena) (values : List DataValue) (after : Arena) : Prop where
  gone : ∀ id ∈ values.flatMap DataValue.nodeIds, after.node? id = none
  others : ∀ id, id ∉ values.flatMap DataValue.nodeIds → after.node? id = before.node? id
  detached : ∀ id, after.isDetached id = true ↔
    id ∈ values.flatMap DataValue.nodeIds ∨ before.isDetached id = true
  references : ∀ id, Keyed.find? id after.references ≠ none →
    id ∉ values.flatMap DataValue.nodeIds ∧ Keyed.find? id before.references ≠ none
  sorted : Keyed.Increasing before.nodes → Keyed.Increasing after.nodes

theorem drops_foldl (parent : Option NodeId)
    (step : Arena × List ChangeEvent → PathElement × NodeId → Arena × List ChangeEvent)
    {values : List DataValue} {children : List (PathElement × NodeId)}
    (aligned : children.map Prod.snd = values.map DataValue.id)
    (distinct : (values.flatMap DataValue.nodeIds).Nodup)
    (each : ∀ value ∈ values, ∀ reached element, reached.1.Holds parent value →
      Drops reached.1 [value] (step reached (element, value.id)).1)
    (reached : Arena × List ChangeEvent) (holds : ∀ value ∈ values, reached.1.Holds parent value) :
    Drops reached.1 values (children.foldl step reached).1 := by
  induction values generalizing children reached with
  | nil =>
      rw [List.map_nil, List.map_eq_nil_iff] at aligned
      subst aligned
      exact ⟨by simp, fun _ _ => rfl, by simp, by simp, fun sorted => sorted⟩
  | cons value rest ih =>
      rw [List.map_cons, List.map_eq_cons_iff] at aligned
      obtain ⟨⟨element, id⟩, others, rfl, rfl, othersAligned⟩ := aligned
      rw [List.flatMap_cons, List.nodup_append'] at distinct
      obtain ⟨_, restDistinct, apart⟩ := distinct
      have first := each value List.mem_cons_self reached element (holds value List.mem_cons_self)
      have stillHeld : ∀ child ∈ rest, (step reached (element, value.id)).1.Holds parent child := by
        intro child listed
        refine (holds child (List.mem_cons_of_mem _ listed)).congr fun own ownListed => ?_
        apply first.others own
        rw [List.flatMap_singleton]
        intro inValue
        exact apart inValue ((DataValue.sublist_flatMap_of_mem listed).subset ownListed)
      have later := ih othersAligned restDistinct
        (fun child listed => each child (List.mem_cons_of_mem _ listed)) _ stillHeld
      rw [List.foldl_cons]
      refine ⟨?_, ?_, ?_, ?_, fun sorted => later.sorted (first.sorted sorted)⟩ <;>
        simp only [List.flatMap_cons, List.mem_append, not_or]
      · intro id listed
        by_cases inRest : id ∈ rest.flatMap DataValue.nodeIds
        · exact later.gone id inRest
        · rw [later.others id inRest]
          exact first.gone id (by simpa using listed.resolve_right inRest)
      · intro id absent
        exact (later.others id absent.2).trans (first.others id (by simpa using absent.1))
      · intro id
        rw [later.detached, first.detached, List.flatMap_singleton]
        tauto
      · intro id present
        obtain ⟨notInRest, afterFirst⟩ := later.references id present
        obtain ⟨notInValue, before⟩ := first.references id afterFirst
        exact ⟨⟨by simpa using notInValue, notInRest⟩, before⟩

theorem drops_detachBelow (origin : Origin) {depth : Nat} (path : Path)
    (holds : arena.Holds parent value) (distinct : value.nodeIds.Nodup)
    (enough : value.nodeIds.length ≤ depth) :
    Drops arena [value] (detachBelow origin depth path value.id arena).1 := by
  induction value using DataValue.induction generalizing arena parent depth path with
  | step value ih =>
      rw [DataValue.nodeIds_eq, List.length_cons] at enough
      obtain _ | depth := depth
      · omega
      · have afterRoot (child : DataValue) (listed : child ∈ value.childValues) :
            (arena.forget value.id).Holds (some value.id) child := by
          refine (holds.child listed).congr fun own ownListed => ?_
          refine (node?_forget _ _).trans (if_neg ?_)
          rintro rfl
          exact DataValue.id_notMem_child distinct listed ownListed
        have below := drops_foldl (some value.id)
          (fun reached child =>
            let next := detachBelow origin depth (path.child child.1) child.2 reached.1
            (next.1, reached.2 ++ next.2))
          value.children_data (DataValue.childValues_nodup distinct)
          (fun child listed reached element held => by
            apply ih child listed (path.child element) held (DataValue.nodup_child distinct listed)
            have shorter := (DataValue.sublist_flatMap_of_mem listed).length_le
            omega)
          (arena.forget value.id, []) afterRoot
        simp only [detachBelow, holds.root, DataValue.node]
        refine ⟨?_, ?_, ?_, ?_, fun sorted => below.sorted (increasing_forget _ sorted)⟩
        · intro id listed
          rw [List.flatMap_singleton, DataValue.nodeIds_eq, List.mem_cons] at listed
          by_cases inChildren : id ∈ value.childValues.flatMap DataValue.nodeIds
          · exact below.gone id inChildren
          · refine (below.others id inChildren).trans ?_
            exact (node?_forget _ _).trans (if_pos (listed.resolve_right inChildren))
        · intro id absent
          rw [List.flatMap_singleton, DataValue.nodeIds_eq, List.mem_cons, not_or] at absent
          refine (below.others id absent.2).trans ?_
          exact (node?_forget _ _).trans (if_neg absent.1)
        · intro id
          rw [below.detached, List.flatMap_singleton, DataValue.nodeIds_eq, List.mem_cons]
          have forgotten : (arena.forget value.id).isDetached id = true ↔
              id = value.id ∨ arena.isDetached id = true := isDetached_forget value.id id
          tauto
        · intro id present
          obtain ⟨notBelow, afterForget⟩ := below.references id present
          rw [references_forget] at afterForget
          rw [List.flatMap_singleton, DataValue.nodeIds_eq, List.mem_cons]
          split at afterForget
          · exact absurd rfl afterForget
          · rename_i elsewhere
            exact ⟨not_or.mpr ⟨elsewhere, notBelow⟩, afterForget⟩

theorem drops_detach (origin : Origin) (path : Path) (holds : arena.Holds parent value)
    (distinct : value.nodeIds.Nodup) : Drops arena [value] (arena.detach origin path value.id).1 :=
  drops_detachBelow origin path holds distinct (holds.length_le_size distinct)

theorem drops_detachChildren (origin : Origin) (path : Path)
    (holds : ∀ child ∈ value.childValues, arena.Holds parent child)
    (distinct : value.nodeIds.Nodup) :
    Drops arena value.childValues (arena.detachChildren origin path value.data).1 :=
  drops_foldl parent _ value.children_data (DataValue.childValues_nodup distinct)
    (fun _ listed _ element held =>
      drops_detach origin (path.child element) held (DataValue.nodup_child distinct listed))
    (arena, []) holds

end Arena

end SharedDocument
