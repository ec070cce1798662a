import Mathlib.Data.List.Perm.Lattice
import Mathlib.Data.List.Perm.Subperm
import Mathlib.Data.List.Nodup
import SharedDocument.Proofs.Keyed
import SharedDocument.Value

/-! Values as trees. A value occurs in another one below a parent, and in a value with distinct ids
each node occurs once. `editAt` edits the node of one id and leaves every other node alone. -/

namespace SharedDocument.DataValue

def childValues : DataValue → List DataValue
  | .object _ children => children.map Prod.snd
  | .array _ children => children
  | _ => []

def mapChildren (transform : DataValue → DataValue) : DataValue → DataValue
  | .object id children => .object id (Keyed.mapValues transform children)
  | .array id children => .array id (children.map transform)
  | value => value

theorem sizeOf_childValue_lt {value child : DataValue} (below : child ∈ value.childValues) :
    sizeOf child < sizeOf value := by
  cases value with
  | object id children =>
      simp only [childValues, List.mem_map] at below
      obtain ⟨entry, listed, rfl⟩ := below
      have bound := List.sizeOf_lt_of_mem listed
      cases entry
      simp only [object.sizeOf_spec, Prod.mk.sizeOf_spec] at bound ⊢
      omega
  | array id children =>
      have bound : sizeOf child < sizeOf children := List.sizeOf_lt_of_mem below
      simp only [array.sizeOf_spec]
      omega
  | _ => simp [childValues] at below

/-- Induction over a value from the values directly below it. -/
@[elab_as_elim]
theorem induction {motive : DataValue → Prop}
    (step : ∀ value, (∀ child ∈ value.childValues, motive child) → motive value)
    (value : DataValue) : motive value :=
  step value fun child _ => induction step child
termination_by sizeOf value
decreasing_by exact sizeOf_childValue_lt ‹_›

theorem itemIds_eq_flatMap (children : List DataValue) :
    itemIds children = children.flatMap nodeIds := by
  induction children with
  | nil => rfl
  | cons child rest ih => simp [itemIds, ih]

theorem memberIds_eq_flatMap (children : List (String × DataValue)) :
    memberIds children = (children.map Prod.snd).flatMap nodeIds := by
  induction children with
  | nil => rfl
  | cons entry rest ih => simp [memberIds, ih]

theorem nodeIds_eq (value : DataValue) :
    value.nodeIds = value.id :: value.childValues.flatMap nodeIds := by
  cases value <;> simp [nodeIds, childValues, DataValue.id, itemIds_eq_flatMap, memberIds_eq_flatMap]

@[simp] theorem id_mapChildren (transform : DataValue → DataValue) (value : DataValue) :
    (value.mapChildren transform).id = value.id := by
  cases value <;> rfl

@[simp] theorem kind_mapChildren (transform : DataValue → DataValue) (value : DataValue) :
    (value.mapChildren transform).kind = value.kind := by
  cases value <;> rfl

@[simp] theorem childValues_mapChildren (transform : DataValue → DataValue) (value : DataValue) :
    (value.mapChildren transform).childValues = value.childValues.map transform := by
  cases value <;> simp [mapChildren, childValues, Keyed.mapValues]

theorem mapChildren_congr {first second : DataValue → DataValue} {value : DataValue}
    (same : ∀ child ∈ value.childValues, first child = second child) :
    value.mapChildren first = value.mapChildren second := by
  cases value with
  | object id children =>
      simp only [childValues, List.mem_map] at same
      simp only [mapChildren, Keyed.mapValues, object.injEq, true_and]
      exact List.map_congr_left fun entry listed => by rw [same entry.2 ⟨entry, listed, rfl⟩]
  | array id children =>
      simp only [mapChildren, array.injEq, true_and]
      exact List.map_congr_left same
  | _ => rfl

theorem mapChildren_mapChildren (first second : DataValue → DataValue) (value : DataValue) :
    (value.mapChildren first).mapChildren second = value.mapChildren (second ∘ first) := by
  cases value <;> simp [mapChildren, Keyed.mapValues]

@[simp] theorem mapChildren_id (value : DataValue) : value.mapChildren (fun child => child) = value := by
  cases value <;> simp [mapChildren, Keyed.mapValues]

theorem sublist_flatMap_of_mem {child : DataValue} {children : List DataValue}
    (listed : child ∈ children) : child.nodeIds.Sublist (children.flatMap nodeIds) := by
  induction children with
  | nil => simp at listed
  | cons first rest ih =>
      rw [List.flatMap_cons]
      rcases List.mem_cons.mp listed with rfl | later
      · exact List.sublist_append_left _ _
      · exact (ih later).trans (List.sublist_append_right _ _)

theorem sublist_nodeIds_of_child {value child : DataValue} (listed : child ∈ value.childValues) :
    child.nodeIds.Sublist value.nodeIds := by
  rw [nodeIds_eq value]
  exact (sublist_flatMap_of_mem listed).cons _

/-- The second value occurs in the first; each is given with its parent. -/
inductive Occurs : Option NodeId → DataValue → Option NodeId → DataValue → Prop
  | here {parent value} : Occurs parent value parent value
  | deeper {parent value child innerParent inner} : child ∈ value.childValues →
      Occurs (some value.id) child innerParent inner → Occurs parent value innerParent inner

namespace Occurs

variable {parent innerParent otherParent : Option NodeId} {value inner other : DataValue}

theorem eq_or_deeper (occurs : Occurs parent value innerParent inner) :
    (innerParent = parent ∧ inner = value) ∨
      ∃ child ∈ value.childValues, Occurs (some value.id) child innerParent inner := by
  cases occurs with
  | here => exact Or.inl ⟨rfl, rfl⟩
  | deeper listed occurs => exact Or.inr ⟨_, listed, occurs⟩

theorem eq_of_childless (childless : value.childValues = [])
    (occurs : Occurs parent value innerParent inner) : inner = value := by
  rcases occurs.eq_or_deeper with ⟨-, same⟩ | ⟨child, listed, -⟩
  · exact same
  · rw [childless] at listed
    cases listed

theorem trans (outer : Occurs parent value innerParent inner)
    (within : Occurs innerParent inner otherParent other) :
    Occurs parent value otherParent other := by
  induction outer with
  | here => exact within
  | deeper listed _ ih => exact deeper listed (ih within)

theorem child {child : DataValue} (occurs : Occurs parent value innerParent inner)
    (listed : child ∈ inner.childValues) : Occurs parent value (some inner.id) child :=
  occurs.trans (deeper listed here)

theorem sublist_nodeIds (occurs : Occurs parent value innerParent inner) :
    inner.nodeIds.Sublist value.nodeIds := by
  induction occurs with
  | here => exact List.Sublist.refl _
  | deeper listed _ ih => exact ih.trans (sublist_nodeIds_of_child listed)

/-- The parent of the whole value does not matter. -/
theorem exists_below (outerParent : Option NodeId) (occurs : Occurs parent value innerParent inner) :
    ∃ otherParent, Occurs outerParent value otherParent inner := by
  cases occurs with
  | here => exact ⟨outerParent, here⟩
  | deeper listed occurs => exact ⟨innerParent, deeper listed occurs⟩

end Occurs

theorem id_mem_nodeIds (value : DataValue) : value.id ∈ value.nodeIds := by
  rw [nodeIds_eq]
  exact List.mem_cons_self

theorem Occurs.id_mem {parent innerParent : Option NodeId} {value inner : DataValue}
    (occurs : Occurs parent value innerParent inner) : inner.id ∈ value.nodeIds :=
  occurs.sublist_nodeIds.subset (id_mem_nodeIds inner)

theorem mem_nodeIds_iff (parent : Option NodeId) (value : DataValue) (id : NodeId) :
    id ∈ value.nodeIds ↔ ∃ innerParent inner, Occurs parent value innerParent inner ∧ inner.id = id := by
  constructor
  · intro listed
    induction value using induction generalizing parent with
    | step value ih =>
        rw [nodeIds_eq] at listed
        rcases List.mem_cons.mp listed with here | later
        · exact ⟨parent, value, .here, here.symm⟩
        · obtain ⟨child, below, inChild⟩ := List.mem_flatMap.mp later
          obtain ⟨innerParent, inner, occurs, same⟩ := ih child below (some value.id) inChild
          exact ⟨innerParent, inner, .deeper below occurs, same⟩
  · rintro ⟨innerParent, inner, occurs, rfl⟩
    exact occurs.id_mem

/-! Distinct ids. -/

theorem nodup_child {value child : DataValue} (distinct : value.nodeIds.Nodup)
    (listed : child ∈ value.childValues) : child.nodeIds.Nodup :=
  distinct.sublist (sublist_nodeIds_of_child listed)

theorem id_notMem_child {value child : DataValue} (distinct : value.nodeIds.Nodup)
    (listed : child ∈ value.childValues) : value.id ∉ child.nodeIds := by
  rw [nodeIds_eq, List.nodup_cons] at distinct
  intro repeated
  exact distinct.1 ((sublist_flatMap_of_mem listed).subset repeated)

theorem eq_of_common_id {children : List DataValue} (distinct : (children.flatMap nodeIds).Nodup)
    {first second : DataValue} (firstListed : first ∈ children) (secondListed : second ∈ children)
    {id : NodeId} (inFirst : id ∈ first.nodeIds) (inSecond : id ∈ second.nodeIds) :
    first = second := by
  induction children with
  | nil => simp at firstListed
  | cons child rest ih =>
      rw [List.flatMap_cons, List.nodup_append'] at distinct
      obtain ⟨_, restDistinct, apart⟩ := distinct
      rcases List.mem_cons.mp firstListed with rfl | firstLater
      · rcases List.mem_cons.mp secondListed with rfl | secondLater
        · rfl
        · exact absurd ((sublist_flatMap_of_mem secondLater).subset inSecond) (apart inFirst)
      · rcases List.mem_cons.mp secondListed with rfl | secondLater
        · exact absurd ((sublist_flatMap_of_mem firstLater).subset inFirst) (apart inSecond)
        · exact ih restDistinct firstLater secondLater

theorem childValues_nodup {value : DataValue} (distinct : value.nodeIds.Nodup) :
    (value.childValues.flatMap nodeIds).Nodup := by
  rw [nodeIds_eq] at distinct
  exact (List.nodup_cons.mp distinct).2

theorem childIds_sublist (children : List DataValue) :
    (children.map id).Sublist (children.flatMap nodeIds) := by
  induction children with
  | nil => exact List.Sublist.slnil
  | cons child rest ih =>
      rw [List.map_cons, List.flatMap_cons, nodeIds_eq]
      exact (ih.trans (List.sublist_append_right _ _)).cons_cons child.id

theorem Occurs.unique {parent firstParent secondParent : Option NodeId}
    {value first second : DataValue} (distinct : value.nodeIds.Nodup)
    (firstOccurs : Occurs parent value firstParent first)
    (secondOccurs : Occurs parent value secondParent second) (same : first.id = second.id) :
    firstParent = secondParent ∧ first = second := by
  induction value using induction generalizing parent with
  | step value ih =>
      rcases firstOccurs.eq_or_deeper with ⟨rfl, rfl⟩ | ⟨child, listed, firstDeeper⟩
      · rcases secondOccurs.eq_or_deeper with ⟨rfl, rfl⟩ | ⟨other, otherListed, secondDeeper⟩
        · exact ⟨rfl, rfl⟩
        · exact absurd (same ▸ secondDeeper.id_mem) (id_notMem_child distinct otherListed)
      · rcases secondOccurs.eq_or_deeper with ⟨rfl, rfl⟩ | ⟨other, otherListed, secondDeeper⟩
        · exact absurd (same ▸ firstDeeper.id_mem) (id_notMem_child distinct listed)
        · have together : child = other := eq_of_common_id (childValues_nodup distinct) listed
            otherListed firstDeeper.id_mem (same ▸ secondDeeper.id_mem)
          subst together
          exact ih child listed (nodup_child distinct listed) firstDeeper secondDeeper

/-! Key order. -/

def KeysIncrease : DataValue → Prop
  | .object _ children => Keyed.Increasing children
  | _ => True

inductive Ordered : DataValue → Prop
  | intro {value} : value.KeysIncrease → (∀ child ∈ value.childValues, Ordered child) → Ordered value

theorem Ordered.leaf {value : DataValue} (childless : value.childValues = []) : value.Ordered := by
  refine .intro ?_ (by simp [childless])
  cases value with
  | object id children =>
      rw [childValues, List.map_eq_nil_iff] at childless
      simp [KeysIncrease, childless, Keyed.Increasing]
  | _ => trivial

theorem Ordered.keysIncrease {value : DataValue} (ordered : value.Ordered) :
    value.KeysIncrease := by
  cases ordered with
  | intro keys _ => exact keys

theorem Ordered.child {value child : DataValue} (ordered : value.Ordered)
    (listed : child ∈ value.childValues) : child.Ordered := by
  cases ordered with
  | intro _ children => exact children child listed

theorem Ordered.occurs {parent innerParent : Option NodeId} {value inner : DataValue}
    (ordered : value.Ordered) (occurs : Occurs parent value innerParent inner) :
    inner.Ordered := by
  induction occurs with
  | here => exact ordered
  | deeper listed _ ih => exact ih (ordered.child listed)

theorem keysIncrease_mapChildren {transform : DataValue → DataValue} {value : DataValue}
    (keys : value.KeysIncrease) : (value.mapChildren transform).KeysIncrease := by
  cases value with
  | object id children => exact Keyed.increasing_mapValues transform keys
  | _ => trivial

end SharedDocument.DataValue
