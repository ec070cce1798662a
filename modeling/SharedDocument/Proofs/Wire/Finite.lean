import SharedDocument.Proofs.Wire.Number
import SharedDocument.Proofs.Wire.Value

/-! What is decoded from proper JSON has finite numbers, so it can be encoded again. -/

namespace SharedDocument

namespace Json

def children : Json → List Json
  | .array items => items
  | .object members => members.map Prod.snd
  | _ => []

theorem sizeOf_child_lt {json child : Json} (inside : child ∈ json.children) :
    sizeOf child < sizeOf json := by
  cases json with
  | array items =>
      have bound : sizeOf child < sizeOf items := List.sizeOf_lt_of_mem inside
      simp only [array.sizeOf_spec]
      omega
  | object members =>
      obtain ⟨entry, listed, rfl⟩ := List.mem_map.mp inside
      have bound := List.sizeOf_lt_of_mem listed
      cases entry
      simp only [object.sizeOf_spec, Prod.mk.sizeOf_spec] at bound ⊢
      omega
  | _ => cases inside

@[elab_as_elim]
theorem induction {motive : Json → Prop}
    (step : ∀ json, (∀ child ∈ json.children, motive child) → motive json)
    (json : Json) : motive json :=
  step json fun child _ => induction step child
termination_by sizeOf json
decreasing_by exact sizeOf_child_lt ‹_›

/-- A number that has 64 bits: an integer with a sign or without, or a finite float. -/
def HasProperNumber : Json → Prop
  | .int value => -0x8000000000000000 ≤ value ∧ value < 0x10000000000000000
  | .float value => value.isFinite = true
  | _ => True

inductive IsProper : Json → Prop
  | intro {json} : json.HasProperNumber → (∀ child ∈ json.children, IsProper child) → IsProper json

theorem IsProper.number {json : Json} (proper : json.IsProper) : json.HasProperNumber := by
  cases proper with
  | intro number _ => exact number

theorem IsProper.child {json child : Json} (proper : json.IsProper)
    (inside : child ∈ json.children) : child.IsProper := by
  cases proper with
  | intro _ children => exact children child inside

theorem IsProper.member {members : List (String × Json)} (proper : (object members).IsProper)
    {name : String} {json : Json} (found : Keyed.find? name members = some json) :
    json.IsProper :=
  proper.child (List.mem_map_of_mem (Keyed.mem_of_find? found))

end Json

theorem Wire.isProper_of_fields? {names : List String} {record : Json} (proper : record.IsProper)
    {fields : List (Option Json)} (read : fields? names record = some fields) :
    ∀ json, some json ∈ fields → json.IsProper := by
  intro json listed
  cases record with
  | object members =>
      cases read
      obtain ⟨name, -, found⟩ := List.mem_map.mp listed
      exact proper.member found
  | array items =>
      rw [fields?] at read
      split at read
      · cases read
        exact proper.child (by simpa [Json.children] using listed)
      · cases read
  | _ => cases read

theorem Wire.isFinite_float? {json : Json} (proper : json.IsProper) {value : Float}
    (read : float? json = some value) : value.isFinite = true := by
  have number := proper.number
  cases json with
  | int value =>
      cases read
      exact Float.isFinite_ofInt number.1 number.2
  | float value =>
      cases read
      exact number
  | _ => cases read

namespace DataValue

def Children.values : Children → List DataValue
  | .items values => values
  | .members values => values.map Prod.snd

theorem isFinite_assemble {kind : NodeKind} {id : NodeId} {contents : Option Json}
    {children : Option Children} {value : DataValue}
    (assembled : assemble kind id contents children = some value)
    (proper : ∀ json, contents = some json → json.IsProper)
    (below : ∀ found, children = some found → ∀ child ∈ found.values, child.IsFinite) :
    value.IsFinite := by
  cases kind with
  | object =>
      simp only [assemble] at assembled
      split at assembled
      · cases assembled
        exact throughout_iff.mpr ⟨trivial, below _ rfl⟩
      · cases assembled
  | array =>
      simp only [assemble] at assembled
      split at assembled
      · cases assembled
        exact throughout_iff.mpr ⟨trivial, below _ rfl⟩
      · cases assembled
  | number =>
      obtain ⟨number, read, rfl⟩ := Option.map_eq_some_iff.mp assembled
      obtain ⟨json, found, number?⟩ := Option.bind_eq_some_iff.mp read
      have finite := Wire.isFinite_float? (proper json found) number?
      exact .leaf rfl finite
  | null =>
      cases assembled
      exact .leaf rfl trivial
  | _ =>
      obtain ⟨scalar, -, rfl⟩ := Option.map_eq_some_iff.mp assembled
      exact .leaf rfl trivial

theorem decodeItems_eq_some {items : List Json} {values : List DataValue}
    (decoded : decodeItems items = some values) {value : DataValue} (listed : value ∈ values) :
    ∃ item ∈ items, decodeAs true item = some value := by
  induction items generalizing values with
  | nil =>
      cases decoded
      cases listed
  | cons item rest ih =>
      rw [decodeItems] at decoded
      split at decoded
      · rename_i first others firstDecoded othersDecoded
        cases decoded
        rcases List.mem_cons.mp listed with rfl | later
        · exact ⟨item, List.mem_cons_self, firstDecoded⟩
        · obtain ⟨other, otherListed, otherDecoded⟩ := ih othersDecoded later
          exact ⟨other, List.mem_cons_of_mem _ otherListed, otherDecoded⟩
      · cases decoded

theorem decodeMembers_eq_some {members : List (String × Json)}
    {values : List (String × DataValue)} (decoded : decodeMembers members = some values)
    {value : DataValue} (listed : value ∈ values.map Prod.snd) :
    ∃ member ∈ members.map Prod.snd, decodeAs true member = some value := by
  induction members generalizing values with
  | nil =>
      cases decoded
      cases listed
  | cons entry rest ih =>
      rw [decodeMembers] at decoded
      split at decoded
      · rename_i first others firstDecoded othersDecoded
        cases decoded
        rcases List.mem_cons.mp listed with rfl | later
        · exact ⟨entry.2, List.mem_cons_self, firstDecoded⟩
        · obtain ⟨other, otherListed, otherDecoded⟩ := ih othersDecoded later
          exact ⟨other, List.mem_cons_of_mem _ otherListed, otherDecoded⟩
      · cases decoded

theorem decodeChildren_eq_some {json : Json} {children : Children}
    (decoded : decodeChildren json = some children) {value : DataValue}
    (listed : value ∈ children.values) :
    ∃ child ∈ json.children, decodeAs true child = some value := by
  cases json with
  | array items =>
      obtain ⟨values, itemsDecoded, rfl⟩ := Option.map_eq_some_iff.mp decoded
      exact decodeItems_eq_some itemsDecoded listed
  | object members =>
      obtain ⟨values, membersDecoded, rfl⟩ := Option.map_eq_some_iff.mp decoded
      exact decodeMembers_eq_some membersDecoded listed
  | _ => cases decoded

theorem childrenField_eq_some {members : List (String × Json)} {children : Children}
    (decoded : childrenField members = some children) :
    ∃ json ∈ members.map Prod.snd, decodeChildren json = some children := by
  induction members with
  | nil => cases decoded
  | cons entry rest ih =>
      rw [childrenField] at decoded
      split at decoded
      · exact ⟨entry.2, List.mem_cons_self, decoded⟩
      · obtain ⟨json, listed, found⟩ := ih decoded
        exact ⟨json, List.mem_cons_of_mem _ listed, found⟩

/-- The contents of a container are decoded two levels down, so a level is proved together with the
contents that stand at it. -/
theorem isFinite_of_decodeAs {isNested : Bool} {json : Json} (proper : json.IsProper)
    {value : DataValue} (decoded : decodeAs isNested json = some value) : value.IsFinite := by
  have both : (∀ isNested value, decodeAs isNested json = some value → value.IsFinite) ∧
      ∀ children, decodeChildren json = some children →
        ∀ child ∈ children.values, child.IsFinite := by
    clear decoded value isNested
    induction json using Json.induction with
    | step json ih =>
        have inner (child : Json) (inside : child ∈ json.children) :=
          ih child inside (proper.child inside)
        constructor
        · intro isNested value decoded
          cases json with
          | object members =>
              simp only [decodeAs, Option.bind_eq_bind, Option.bind_eq_some_iff] at decoded
              obtain ⟨-, -, kind, -, -, -, id, -, assembled⟩ := decoded
              refine isFinite_assemble assembled (fun json found => proper.member found) ?_
              intro children inField
              obtain ⟨field, inside, found⟩ := childrenField_eq_some inField
              exact (inner field inside).2 children found
          | array items =>
              rcases items with _ | ⟨tag, _ | ⟨id, _ | ⟨contents, _ | ⟨next, rest⟩⟩⟩⟩
              · simp [decodeAs] at decoded
              · simp [decodeAs] at decoded
              · simp only [decodeAs, Option.bind_eq_bind, Option.bind_eq_some_iff] at decoded
                obtain ⟨kind, -, id, -, found⟩ := decoded
                split at found
                · cases found
                  exact .leaf rfl trivial
                · cases found
              · have inside : contents ∈ (Json.array [tag, id, contents]).children := by
                  simp [Json.children]
                simp only [decodeAs, Option.bind_eq_bind, Option.bind_eq_some_iff] at decoded
                obtain ⟨kind, -, id, -, found⟩ := decoded
                split at found
                · cases found
                · refine isFinite_assemble found ?_ (inner contents inside).2
                  rintro json ⟨rfl⟩
                  exact proper.child inside
              · simp [decodeAs] at decoded
          | _ => simp [decodeAs] at decoded
        · intro children decoded child listed
          obtain ⟨item, inside, found⟩ := decodeChildren_eq_some decoded listed
          exact (inner item inside).1 true child found
  exact both.1 isNested value decoded

theorem isFinite_of_decodeList? {json : Json} (proper : json.IsProper) {values : List DataValue}
    (decoded : decodeList? json = some values) : ∀ value ∈ values, value.IsFinite := by
  intro value listed
  cases json with
  | array items =>
      obtain ⟨item, inside, found⟩ := decodeItems_eq_some decoded listed
      exact isFinite_of_decodeAs (proper.child inside) found
  | _ => cases decoded

theorem isFinite_of_decodeTable? {json : Json} (proper : json.IsProper)
    {values : List (String × DataValue)} (decoded : decodeTable? json = some values) :
    ∀ value ∈ values.map Prod.snd, value.IsFinite := by
  intro value listed
  cases json with
  | object members =>
      obtain ⟨member, inside, found⟩ := decodeMembers_eq_some decoded listed
      exact isFinite_of_decodeAs (proper.child inside) found
  | _ => cases decoded

end DataValue

end SharedDocument
