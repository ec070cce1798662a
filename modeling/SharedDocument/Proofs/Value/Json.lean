import SharedDocument.Proofs.Value.Editing
import SharedDocument.Proofs.Value.Path

/-! Paths in the JSON of a value. A path leads to the JSON of the node to which it leads in the value,
and writing there the JSON of the edited node gives the JSON of the edited value. -/

namespace SharedDocument

namespace Json

def childAt? : Json → PathElement → Option Json
  | .object members, .key name => Keyed.find? name members
  | .array items, .index position => items[position]?
  | _, _ => none

def at? : Json → Path → Option Json
  | json, [] => some json
  | json, element :: rest =>
      match json.childAt? element with
      | none => none
      | some child => child.at? rest

def withChild (json : Json) (element : PathElement) (written : Json) : Json :=
  match json, element with
  | .object members, .key name => .object (Keyed.insert name written members)
  | .array items, .index position => .array (items.set position written)
  | json, _ => json

def replaceAt? : Json → Path → Json → Option Json
  | _, [], written => some written
  | json, element :: rest, written =>
      match json.childAt? element with
      | none => none
      | some child => (child.replaceAt? rest written).map (json.withChild element)

end Json

namespace DataValue

theorem memberJson_eq (children : List (String × DataValue)) :
    memberJson children = Keyed.mapValues json children := by
  induction children with
  | nil => rfl
  | cons entry rest ih =>
      rw [memberJson, ih]
      rfl

theorem itemJson_eq (children : List DataValue) : itemJson children = children.map json := by
  induction children with
  | nil => rfl
  | cons child rest ih =>
      rw [itemJson, ih]
      rfl

theorem childAt?_json (value : DataValue) (element : PathElement) :
    value.json.childAt? element = (value.childAt? element).map json := by
  cases value with
  | object id children =>
      cases element with
      | key name => simp [json, memberJson_eq, Json.childAt?, childAt?, Keyed.find?_mapValues]
      | index position => rfl
  | array id children =>
      cases element with
      | key name => rfl
      | index position => simp [json, itemJson_eq, Json.childAt?, childAt?]
  | number id stored =>
      simp only [json, Json.number]
      split <;> rfl
  | _ => rfl

theorem at?_json (value : DataValue) (path : Path) :
    value.json.at? path = (value.at? path).map json := by
  induction path generalizing value with
  | nil => rfl
  | cons element rest ih =>
      rw [Json.at?, at?, childAt?_json]
      cases value.childAt? element with
      | none => rfl
      | some child => exact ih child

/-- The JSON after one child has changed. -/
theorem json_mapChildren {value child : DataValue} {element : PathElement}
    (keys : value.KeysIncrease) (distinct : value.nodeIds.Nodup)
    (found : value.childAt? element = some child) {transform : DataValue → DataValue}
    (fixed : ∀ other ∈ value.childValues, other ≠ child → transform other = other) :
    (value.mapChildren transform).json = value.json.withChild element (transform child).json := by
  have apart := nodup_childValues distinct
  cases value with
  | object id children =>
      cases element with
      | key name =>
          have foundChild : Keyed.find? name children = some child := found
          simp only [mapChildren, json, memberJson_eq, Json.withChild, Json.object.injEq]
          apply Keyed.eq_of_find?
          · exact Keyed.increasing_mapValues _ (Keyed.increasing_mapValues _ keys)
          · exact Keyed.increasing_insert _ _ (Keyed.increasing_mapValues _ keys)
          intro key
          rw [Keyed.find?_insert]
          simp only [Keyed.find?_mapValues]
          by_cases here : key = name
          · rw [if_pos here, here, foundChild]
            rfl
          · rw [if_neg here]
            cases elsewhere : Keyed.find? key children with
            | none => rfl
            | some other =>
                have otherListed := Keyed.mem_of_find? elsewhere
                have different : other ≠ child := by
                  rintro rfl
                  have same := List.inj_on_of_nodup_map apart otherListed
                    (Keyed.mem_of_find? foundChild) rfl
                  exact here (congrArg Prod.fst same)
                rw [Option.map_some, fixed other (List.mem_map_of_mem otherListed) different]
      | index position => cases found
  | array id children =>
      cases element with
      | key name => cases found
      | index position =>
          obtain ⟨inside, rfl⟩ := List.getElem?_eq_some_iff.mp found
          simp only [mapChildren, json, itemJson_eq, Json.withChild, Json.array.injEq]
          apply List.ext_getElem (by simp)
          intro other otherInside _
          simp only [List.length_map] at otherInside
          by_cases here : position = other
          · subst here
            simp
          · have different : children[other] ≠ children[position] := by
              intro same
              exact here ((List.Nodup.getElem_inj_iff apart).mp same).symm
            simp [here, fixed _ (List.getElem_mem otherInside) different]
  | _ => cases found

/-- The JSON of the edited node, written where the node lies, makes the JSON of the edited value. -/
theorem replaceAt?_json {value inner : DataValue} {path : Path} (ordered : value.Ordered)
    (distinct : value.nodeIds.Nodup) (found : value.at? path = some inner)
    (edit : DataValue → DataValue) :
    value.json.replaceAt? path (edit inner).json = some (value.editAt inner.id edit).json := by
  induction path generalizing value with
  | nil =>
      rw [at?, Option.some.injEq] at found
      subst found
      rw [editAt_self rfl]
      rfl
  | cons element rest ih =>
      obtain ⟨child, foundChild, foundBelow, listed, inChild, elsewhere⟩ :=
        below_of_at? ordered distinct found
      have fixed : ∀ other ∈ value.childValues, other ≠ child →
          other.editAt inner.id edit = other := by
        intro other otherListed different
        apply editAt_of_notMem
        intro inOther
        exact different (eq_of_common_id (childValues_nodup distinct) otherListed listed inOther
          inChild)
      rw [editAt_of_ne elsewhere, json_mapChildren ordered.keysIncrease distinct foundChild fixed,
        Json.replaceAt?, childAt?_json, foundChild]
      simp only [Option.map_some,
        ih (ordered.child listed) (nodup_child distinct listed) foundBelow]

end DataValue

end SharedDocument
