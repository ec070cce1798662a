import SharedDocument.Proofs.Document.Walks
import SharedDocument.Proofs.Value.Json

/-! Paths and JSON in an arena that holds a value. Whatever the walk up from a node reports leads down
to it, no other path does, and the JSON of a node is that of its value. -/

namespace SharedDocument

namespace DataValue

variable {value : DataValue}

theorem data_children (value : DataValue) :
    value.data.children = value.places.map fun place => (place.1, place.2.id) := by
  cases value with
  | object id children =>
      simp [data, NodeData.children, places, Keyed.mapValues]
  | array id children =>
      simp only [data, NodeData.children, places, List.zipIdx_map, List.map_map]
      rfl
  | _ => rfl

theorem childAt?_data (value : DataValue) (element : PathElement) :
    value.data.childAt? element = (value.childAt? element).map id := by
  cases value with
  | object own children =>
      cases element with
      | key name => simp [data, NodeData.childAt?, childAt?, Keyed.find?_mapValues]
      | index position => rfl
  | array own children =>
      cases element with
      | key name => rfl
      | index position => simp [data, NodeData.childAt?, childAt?]
  | _ => rfl

theorem place_of_elementOf? (distinct : value.nodeIds.Nodup) {child : DataValue}
    (listed : child ∈ value.childValues) {element : PathElement}
    (found : value.data.elementOf? child.id = some element) : (element, child) ∈ value.places := by
  rw [NodeData.elementOf?, Option.map_eq_some_iff] at found
  obtain ⟨entry, foundEntry, rfl⟩ := found
  have entryListed := List.mem_of_find?_eq_some foundEntry
  rw [data_children, List.mem_map] at entryListed
  obtain ⟨place, placed, rfl⟩ := entryListed
  have sameId : place.2.id = child.id := by simpa using List.find?_some foundEntry
  have inChild : place.2.id ∈ child.nodeIds := sameId ▸ id_mem_nodeIds child
  have together : place.2 = child := eq_of_common_id (childValues_nodup distinct)
    (mem_childValues_of_place placed) listed (id_mem_nodeIds place.2) inChild
  rw [← together]
  exact placed

end DataValue

namespace Arena

variable {arena : Arena} {value : DataValue}

/-- Follows a path down from a node, past detached ids too. -/
def locate (arena : Arena) : NodeId → Path → Option NodeId
  | id, [] => some id
  | id, element :: rest =>
      match (arena.node? id).bind fun node => node.data.childAt? element with
      | none => none
      | some child => arena.locate child rest

theorem locate_eq {parent : Option NodeId} (holds : arena.Holds parent value)
    (ordered : value.Ordered) (path : Path) :
    arena.locate value.id path = (value.at? path).map DataValue.id := by
  induction path generalizing value parent with
  | nil => rfl
  | cons element rest ih =>
      rw [locate, DataValue.at?, holds.root, Option.bind_some, DataValue.node,
        DataValue.childAt?_data]
      cases found : value.childAt? element with
      | none => rfl
      | some child =>
          have listed := DataValue.mem_childValues_of_place
            ((DataValue.mem_places_iff ordered.keysIncrease).mpr found)
          exact ih (holds.child listed) (ordered.child listed)

theorem jsonBelow_eq {parent : Option NodeId} {depth : Nat} (holds : arena.Holds parent value)
    (enough : value.nodeIds.length ≤ depth) :
    arena.jsonBelow depth value.id = some value.json := by
  induction value using DataValue.induction generalizing parent depth with
  | step value ih =>
      rw [DataValue.nodeIds_eq, List.length_cons] at enough
      obtain _ | depth := depth
      · omega
      · have below (child : DataValue) (listed : child ∈ value.childValues) :
            arena.jsonBelow depth child.id = some child.json := by
          apply ih child listed (holds.child listed)
          have shorter := (DataValue.sublist_flatMap_of_mem listed).length_le
          omega
        rw [jsonBelow, holds.root, Option.map_some]
        cases value with
        | object id children =>
            simp only [DataValue.node, DataValue.data, DataValue.json, DataValue.memberJson_eq,
              Keyed.mapValues, List.filterMap_map, Option.some.injEq, Json.object.injEq]
            rw [← List.filterMap_eq_map]
            apply List.filterMap_congr
            intro entry listed
            simp [below entry.2 (List.mem_map_of_mem listed)]
        | array id children =>
            simp only [DataValue.node, DataValue.data, DataValue.json, DataValue.itemJson_eq,
              List.filterMap_map, Option.some.injEq, Json.array.injEq]
            rw [← List.filterMap_eq_map]
            apply List.filterMap_congr
            intro child listed
            exact below child listed
        | _ => rfl

theorem json_eq {parent : Option NodeId} (holds : arena.Holds parent value)
    (distinct : value.nodeIds.Nodup) : arena.json value.id = some value.json :=
  jsonBelow_eq holds (holds.length_le_size distinct)

theorem at?_of_pathUp (holds : arena.Holds none value) (ordered : value.Ordered)
    (distinct : value.nodeIds.Nodup) {parent : Option NodeId} {inner : DataValue} {steps : Nat}
    (occurs : DataValue.Occurs none value parent inner) {below path : Path}
    (found : arena.pathUp steps (inner.node parent) below = .ok path) :
    ∃ above, path = above ++ below ∧ value.at? above = some inner := by
  induction steps generalizing parent inner below with
  | zero => cases found
  | succ steps ih =>
      rcases occurs.eq_or_child with ⟨rfl, rfl⟩ | ⟨outerParent, outer, outerOccurs, rfl, listed⟩
      · cases found
        exact ⟨[], rfl, rfl⟩
      · have outerHolds : arena.Holds outerParent outer :=
          fun _ _ inOuter => holds _ _ (outerOccurs.trans inOuter)
        simp only [pathUp, DataValue.node] at found
        split at found
        · cases found
        · rename_i stored attached
          obtain ⟨-, storedHere⟩ := attached_eq_ok_iff.mp attached
          rw [outerHolds.root, Option.some.injEq] at storedHere
          subst storedHere
          split at found
          · cases found
          · rename_i element elementFound
            obtain ⟨above, rfl, foundOuter⟩ := ih outerOccurs found
            have placed := DataValue.place_of_elementOf?
              (distinct.sublist outerOccurs.sublist_nodeIds) listed elementFound
            refine ⟨above ++ [element], by simp, ?_⟩
            exact DataValue.at?_place foundOuter (ordered.occurs outerOccurs).keysIncrease placed

/-- The path of a node leads to the node. -/
theorem at?_of_pathOf (holds : arena.Holds none value) (ordered : value.Ordered)
    (distinct : value.nodeIds.Nodup) {parent : Option NodeId} {inner : DataValue}
    (occurs : DataValue.Occurs none value parent inner) {path : Path}
    (found : arena.pathOf inner.id = .ok path) : value.at? path = some inner := by
  have innerHolds : arena.Holds parent inner := fun _ _ inInner => holds _ _ (occurs.trans inInner)
  unfold pathOf at found
  split at found
  · cases found
  · rename_i stored attached
    obtain ⟨-, storedHere⟩ := attached_eq_ok_iff.mp attached
    rw [innerHolds.root, Option.some.injEq] at storedHere
    subst storedHere
    obtain ⟨above, rfl, foundInner⟩ := at?_of_pathUp holds ordered distinct occurs found
    rwa [List.append_nil]

end Arena

end SharedDocument
