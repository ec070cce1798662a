import SharedDocument.Path
import SharedDocument.Proofs.Value

/-! Paths in values. A path is followed from a value down to one of its nodes. Listing the nodes of a
value with their paths, children before their parent, lists them in the order of their paths. -/

namespace SharedDocument

def PathElement.Precedes : PathElement → PathElement → Prop
  | .key first, .key second => first < second
  | .index first, .index second => first < second
  | _, _ => False

/-- What lies below a node comes before the node, and what lies in one of its children before what lies
in a later one. -/
def Path.Precedes : Path → Path → Prop
  | [], _ => False
  | _ :: _, [] => True
  | first :: firstRest, second :: secondRest =>
      first.Precedes second ∨ first = second ∧ Precedes firstRest secondRest

theorem Path.Precedes.append {first second : Path} (precedes : Path.Precedes first second)
    (path : Path) : Path.Precedes (path ++ first) (path ++ second) := by
  induction path with
  | nil => exact precedes
  | cons element rest ih => exact Or.inr ⟨rfl, ih⟩

namespace DataValue

def places : DataValue → List (PathElement × DataValue)
  | .object _ children => children.map fun entry => (.key entry.1, entry.2)
  | .array _ children => children.zipIdx.map fun entry => (.index entry.2, entry.1)
  | _ => []

def childAt? : DataValue → PathElement → Option DataValue
  | .object _ children, .key name => Keyed.find? name children
  | .array _ children, .index position => children[position]?
  | _, _ => none

def at? : DataValue → Path → Option DataValue
  | value, [] => some value
  | value, element :: rest =>
      match value.childAt? element with
      | none => none
      | some child => child.at? rest

theorem places_values (value : DataValue) : value.places.map Prod.snd = value.childValues := by
  cases value with
  | object id children => simp [places, childValues]
  | array id children =>
      simp only [places, childValues, List.map_map]
      exact List.zipIdx_map_fst 0 children
  | _ => rfl

theorem mem_childValues_of_place {value child : DataValue} {element : PathElement}
    (listed : (element, child) ∈ value.places) : child ∈ value.childValues := by
  rw [← places_values]
  exact List.mem_map_of_mem listed

theorem mem_places_iff {value child : DataValue} {element : PathElement}
    (keys : value.KeysIncrease) :
    (element, child) ∈ value.places ↔ value.childAt? element = some child := by
  cases value with
  | object id children =>
      cases element with
      | key name =>
          have member : (.key name, child) ∈ (DataValue.object id children).places ↔
              (name, child) ∈ children := by
            simp [places]
          rw [member]
          exact Keyed.mem_iff_find? keys
      | index position => simp [places, childAt?]
  | array id children =>
      cases element with
      | key name => simp [places, childAt?]
      | index position =>
          have member : (.index position, child) ∈ (DataValue.array id children).places ↔
              (child, position) ∈ children.zipIdx := by
            simp [places]
          rw [member, List.mem_zipIdx_iff_getElem?]
          rfl
  | _ => simp [places, childAt?]

theorem places_pairwise {value : DataValue} (keys : value.KeysIncrease) :
    value.places.Pairwise fun first second => first.1.Precedes second.1 := by
  cases value with
  | object id children => exact List.pairwise_map.mpr keys
  | array id children =>
      have increasing : (children.zipIdx.map Prod.snd).Pairwise (· < ·) := by
        rw [List.zipIdx_map_snd]
        exact List.pairwise_lt_range'
      rw [List.pairwise_map] at increasing
      exact List.pairwise_map.mpr increasing
  | _ => exact List.Pairwise.nil

theorem at?_append (value : DataValue) (first second : Path) :
    value.at? (first ++ second) = (value.at? first).bind fun inner => inner.at? second := by
  induction first generalizing value with
  | nil => rfl
  | cons element rest ih =>
      rw [List.cons_append, at?, at?]
      cases value.childAt? element with
      | none => rfl
      | some child => exact ih child

theorem at?_place {value inner child : DataValue} {path : Path} {element : PathElement}
    (found : value.at? path = some inner) (keys : inner.KeysIncrease)
    (listed : (element, child) ∈ inner.places) : value.at? (path ++ [element]) = some child := by
  rw [at?_append, found, Option.bind_some, at?, (mem_places_iff keys).mp listed]
  rfl

theorem at?_cons_eq_some_iff {value inner : DataValue} {element : PathElement} {rest : Path} :
    value.at? (element :: rest) = some inner ↔
      ∃ child, value.childAt? element = some child ∧ child.at? rest = some inner := by
  rw [at?]
  cases value.childAt? element <;> simp

theorem Ordered.occurs_at {value inner : DataValue} {path : Path} (ordered : value.Ordered)
    (found : value.at? path = some inner) (parent : Option NodeId) :
    ∃ innerParent, Occurs parent value innerParent inner := by
  induction path generalizing value parent with
  | nil =>
      rw [at?, Option.some.injEq] at found
      exact ⟨parent, found ▸ .here⟩
  | cons element rest ih =>
      obtain ⟨child, foundChild, foundBelow⟩ := at?_cons_eq_some_iff.mp found
      have listed := mem_childValues_of_place
        ((mem_places_iff ordered.keysIncrease).mpr foundChild)
      obtain ⟨innerParent, occurs⟩ := ih (ordered.child listed) foundBelow (some value.id)
      exact ⟨innerParent, .deeper listed occurs⟩

theorem nodup_childValues {value : DataValue} (distinct : value.nodeIds.Nodup) :
    value.childValues.Nodup :=
  ((childValues_nodup distinct).sublist (childIds_sublist _)).of_map

/-- A node that a path of one step or more leads to lies in a child. -/
theorem below_of_at? {value inner : DataValue} {element : PathElement} {rest : Path}
    (ordered : value.Ordered) (distinct : value.nodeIds.Nodup)
    (found : value.at? (element :: rest) = some inner) :
    ∃ child, value.childAt? element = some child ∧ child.at? rest = some inner ∧
      child ∈ value.childValues ∧ inner.id ∈ child.nodeIds ∧ value.id ≠ inner.id := by
  obtain ⟨child, foundChild, foundBelow⟩ := at?_cons_eq_some_iff.mp found
  have listed := mem_childValues_of_place ((mem_places_iff ordered.keysIncrease).mpr foundChild)
  obtain ⟨_, occurs⟩ := (ordered.child listed).occurs_at foundBelow none
  refine ⟨child, foundChild, foundBelow, listed, occurs.id_mem, fun same => ?_⟩
  exact id_notMem_child distinct listed (same ▸ occurs.id_mem)

theorem at?_injective {value inner : DataValue} (ordered : value.Ordered)
    (distinct : value.nodeIds.Nodup) {first second : Path}
    (foundFirst : value.at? first = some inner) (foundSecond : value.at? second = some inner) :
    first = second := by
  induction first generalizing value second with
  | nil =>
      cases second with
      | nil => rfl
      | cons element rest =>
          obtain ⟨_, _, _, _, _, elsewhere⟩ := below_of_at? ordered distinct foundSecond
          exact absurd (congrArg id (Option.some.inj foundFirst)) elsewhere
  | cons element rest ih =>
      obtain ⟨child, foundChild, foundBelow, listed, inChild, elsewhere⟩ :=
        below_of_at? ordered distinct foundFirst
      cases second with
      | nil => exact absurd (congrArg id (Option.some.inj foundSecond)) elsewhere
      | cons otherElement otherRest =>
          obtain ⟨other, foundOther, foundOtherBelow, otherListed, inOther, -⟩ :=
            below_of_at? ordered distinct foundSecond
          have together : child = other :=
            eq_of_common_id (childValues_nodup distinct) listed otherListed inChild inOther
          subst together
          have apart := nodup_childValues distinct
          rw [← places_values] at apart
          have samePlace : (element, child) = (otherElement, child) :=
            List.inj_on_of_nodup_map apart ((mem_places_iff ordered.keysIncrease).mpr foundChild)
              ((mem_places_iff ordered.keysIncrease).mpr foundOther) rfl
          rw [ih (ordered.child listed) (nodup_child distinct listed) foundBelow foundOtherBelow,
            (Prod.mk.inj samePlace).1]

mutual

/-- The nodes of a value with their paths, children before their parent. -/
def positioned : DataValue → List (Path × DataValue)
  | .object id children => positionedMembers children ++ [([], .object id children)]
  | .array id children => positionedItems 0 children ++ [([], .array id children)]
  | value => [([], value)]

def positionedItems (position : Nat) : List DataValue → List (Path × DataValue)
  | [] => []
  | child :: rest =>
      (positioned child).map (fun entry => (.index position :: entry.1, entry.2)) ++
        positionedItems (position + 1) rest

def positionedMembers : List (String × DataValue) → List (Path × DataValue)
  | [] => []
  | (key, child) :: rest =>
      (positioned child).map (fun entry => (.key key :: entry.1, entry.2)) ++
        positionedMembers rest

end

def positionedAt (place : PathElement × DataValue) : List (Path × DataValue) :=
  place.2.positioned.map fun entry => (place.1 :: entry.1, entry.2)

theorem positionedItems_eq (position : Nat) (children : List DataValue) :
    positionedItems position children =
      ((children.zipIdx position).map fun entry => (PathElement.index entry.2, entry.1)).flatMap
        positionedAt := by
  induction children generalizing position with
  | nil => rfl
  | cons child rest ih =>
      rw [positionedItems, ih]
      rfl

theorem positionedMembers_eq (children : List (String × DataValue)) :
    positionedMembers children =
      (children.map fun entry => (PathElement.key entry.1, entry.2)).flatMap positionedAt := by
  induction children with
  | nil => rfl
  | cons entry rest ih =>
      rw [positionedMembers, ih]
      rfl

theorem positioned_eq (value : DataValue) :
    value.positioned = value.places.flatMap positionedAt ++ [([], value)] := by
  cases value with
  | object id children => rw [positioned, positionedMembers_eq, places]
  | array id children => rw [positioned, positionedItems_eq, places]
  | _ => rfl

theorem ids_positionedAt (place : PathElement × DataValue) :
    (positionedAt place).map (fun entry => entry.2.id) =
      place.2.positioned.map fun entry => entry.2.id := by
  rw [positionedAt, List.map_map]
  rfl

/-- Every node is listed once. -/
theorem ids_positioned_perm (value : DataValue) :
    (value.positioned.map fun entry => entry.2.id).Perm value.nodeIds := by
  induction value using induction with
  | step value ih =>
      have below : ((value.places.flatMap positionedAt).map fun entry => entry.2.id).Perm
          (value.childValues.flatMap nodeIds) := by
        rw [← places_values, List.map_flatMap, List.flatMap_map]
        refine List.Perm.flatMap_left _ fun place listed => ?_
        rw [ids_positionedAt]
        exact ih place.2 (mem_childValues_of_place listed)
      rw [positioned_eq, nodeIds_eq, List.map_append]
      exact List.perm_append_comm.trans (below.cons value.id)

theorem ids_flatMap_positionedAt_perm (places : List (PathElement × DataValue)) :
    ((places.flatMap positionedAt).map fun entry => entry.2.id).Perm
      ((places.map Prod.snd).flatMap nodeIds) := by
  rw [List.map_flatMap, List.flatMap_map]
  refine List.Perm.flatMap_left _ fun place _ => ?_
  rw [ids_positionedAt]
  exact ids_positioned_perm place.2

theorem at?_positioned {value : DataValue} (ordered : value.Ordered) {entry : Path × DataValue}
    (listed : entry ∈ value.positioned) : value.at? entry.1 = some entry.2 := by
  induction value using induction generalizing entry with
  | step value ih =>
      rw [positioned_eq, List.mem_append, List.mem_flatMap] at listed
      rcases listed with ⟨place, placed, inPlace⟩ | here
      · obtain ⟨below, belowListed, rfl⟩ := List.mem_map.mp inPlace
        have child := mem_childValues_of_place placed
        rw [at?, (mem_places_iff ordered.keysIncrease).mp placed]
        exact ih place.2 child (ordered.child child) belowListed
      · rw [List.mem_singleton.mp here]
        rfl

theorem positioned_pairwise {value : DataValue} (ordered : value.Ordered) :
    value.positioned.Pairwise fun first second => Path.Precedes first.1 second.1 := by
  induction value using induction with
  | step value ih =>
      rw [positioned_eq, List.pairwise_append, List.pairwise_flatMap]
      refine ⟨⟨fun place placed => ?_, ?_⟩, List.pairwise_singleton _ _, ?_⟩
      · have child := mem_childValues_of_place placed
        exact List.pairwise_map.mpr
          ((ih place.2 child (ordered.child child)).imp fun precedes => Or.inr ⟨rfl, precedes⟩)
      · refine (places_pairwise ordered.keysIncrease).imp fun before first inFirst second inSecond => ?_
        obtain ⟨_, _, rfl⟩ := List.mem_map.mp inFirst
        obtain ⟨_, _, rfl⟩ := List.mem_map.mp inSecond
        exact Or.inl before
      · intro first below second here
        obtain ⟨place, _, inPlace⟩ := List.mem_flatMap.mp below
        obtain ⟨_, _, rfl⟩ := List.mem_map.mp inPlace
        rw [List.mem_singleton.mp here]
        trivial

end DataValue

end SharedDocument
