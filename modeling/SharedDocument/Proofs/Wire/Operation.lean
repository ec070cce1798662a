import SharedDocument.Proofs.Wire.Finite
import SharedDocument.Wire.Operation

/-! Operations survive the wire. The members of an edit are those of its change with the target and the
no-op flag put in between, which no change has as a field, so the change is read from them as from its
own members. The members of a group name no target, so a group is never read as an edit. -/

namespace SharedDocument

theorem OperationKind.tag?_name (isNested : Bool) (kind : OperationKind) :
    Wire.tag? isNested all name (.string kind.name) = some kind := by
  cases kind <;> rfl

namespace Change

def IsFinite (change : Change) : Prop :=
  (∀ value ∈ change.createdValues, value.IsFinite) ∧
    match change with
    | .set (.number number) => number.isFinite = true
    | .addNumber number => number.isFinite = true
    | _ => True

def DatesReadBack (change : Change) : Prop :=
  (∀ value ∈ change.createdValues, value.DatesReadBack) ∧
    match change with
    | .set (.date date) => date.ReadsBack
    | _ => True

/-- No field of a change has the name of a member of its edit. -/
theorem fieldNames_free (kind : OperationKind) :
    ∀ name ∈ "type" :: kind.fieldNames, name ≠ "id" ∧ name ≠ "noOp" := by
  cases kind <;> decide

theorem find?_type_members (change : Change) :
    Keyed.find? "type" change.members = some change.kind.encode := by
  match change with
  | .set _ | .text (.insert _ _) | .text (.remove _ _) | .array (.insert _ _) | .array (.remove _)
  | .array (.replace _ _) | .array (.move _ _) | .property (.add _ _) | .property (.set _ _)
  | .property (.remove _) | .addNumber _ => simp [members, Keyed.find?]

/-- The fields of the change are among its members. -/
theorem ofFields?_members {change : Change} (finite : change.IsFinite)
    (dates : change.DatesReadBack) :
    ofFields? change.kind (change.kind.fieldNames.map fun name =>
      Keyed.find? name change.members) = some change := by
  have created (value : DataValue) (listed : value ∈ change.createdValues) :
      DataValue.decodeAs true value.encode = some value :=
    DataValue.decodeAs_encode true (finite.1 value listed) (dates.1 value listed)
  match change with
  | .set (.string value) => rfl
  | .set (.array children) =>
      have items : DataValue.decodeItems (DataValue.encodeItems children) = some children :=
        DataValue.decodeItems_encodeItems created
      simp [kind, Contents.setKind, OperationKind.fieldNames, members, Keyed.find?, ofFields?,
        Contents.encode, DataValue.decodeList?, items]
  | .set (.object children) =>
      have table : DataValue.decodeMembers (DataValue.encodeMembers children) = some children :=
        DataValue.decodeMembers_encodeMembers created
      simp [kind, Contents.setKind, OperationKind.fieldNames, members, Keyed.find?, ofFields?,
        Contents.encode, DataValue.decodeTable?, table]
  | .set (.number value) =>
      have read := Wire.float?_number finite.2
      simp [kind, Contents.setKind, OperationKind.fieldNames, members, Keyed.find?, ofFields?,
        Contents.encode, read]
  | .set (.boolean value) => rfl
  | .set (.date value) =>
      have read := Wire.instant?_text dates.2
      simp [kind, Contents.setKind, OperationKind.fieldNames, members, Keyed.find?, ofFields?,
        Contents.encode, read]
  | .text (.insert index value) | .text (.remove index length) =>
      simp [kind, TextEdit.kind, OperationKind.fieldNames, members, Keyed.find?, ofFields?,
        Wire.word?_word, Wire.text?]
  | .array (.insert index value) | .array (.replace index value) =>
      have read := created value List.mem_cons_self
      simp [kind, ArrayEdit.kind, OperationKind.fieldNames, members, Keyed.find?, ofFields?,
        Wire.word?_word, read]
  | .array (.remove index) | .array (.move source target) =>
      simp [kind, ArrayEdit.kind, OperationKind.fieldNames, members, Keyed.find?, ofFields?,
        Wire.word?_word]
  | .property (.add key value) | .property (.set key value) =>
      have read := created value List.mem_cons_self
      simp [kind, PropertyEdit.kind, OperationKind.fieldNames, members, Keyed.find?, ofFields?,
        Wire.text?, read]
  | .property (.remove key) => rfl
  | .addNumber value =>
      have read := Wire.float?_number finite.2
      simp [kind, OperationKind.fieldNames, members, Keyed.find?, ofFields?, read]

theorem decodeAs_of_agrees {change : Change} (finite : change.IsFinite)
    (dates : change.DatesReadBack) {members : List (String × Json)}
    (agrees : ∀ name ∈ "type" :: change.kind.fieldNames,
      Keyed.find? name members = Keyed.find? name change.members) (isNested : Bool) :
    decodeAs isNested (.object members) = some change := by
  have tag : Keyed.find? "type" members = some (.string change.kind.name) :=
    (agrees "type" List.mem_cons_self).trans change.find?_type_members
  have fields : change.kind.fieldNames.map (fun name => Keyed.find? name members) =
      change.kind.fieldNames.map fun name => Keyed.find? name change.members :=
    List.map_congr_left fun name listed => agrees name (List.mem_cons_of_mem _ listed)
  simp [decodeAs, tag, OperationKind.tag?_name, Wire.fields?, fields,
    ofFields?_members finite dates]

theorem isFinite_ofFields? {kind : OperationKind} {fields : List (Option Json)} {change : Change}
    (proper : ∀ json, some json ∈ fields → json.IsProper)
    (read : ofFields? kind fields = some change) : change.IsFinite := by
  unfold ofFields? at read
  split at read
  case h_17 => cases read
  all_goals simp only [Option.bind_eq_bind, Option.pure_def, Option.bind_eq_some_iff] at read
  case h_4 index value | h_6 index value =>
    obtain ⟨-, -, child, decoded, ⟨rfl⟩⟩ := read
    have finite := DataValue.isFinite_of_decodeAs (proper value (by simp)) decoded
    exact ⟨by simpa [createdValues, ArrayEdit.values] using finite, trivial⟩
  case h_9 key value | h_10 key value =>
    obtain ⟨-, -, child, decoded, ⟨rfl⟩⟩ := read
    have finite := DataValue.isFinite_of_decodeAs (proper value (by simp)) decoded
    exact ⟨by simpa [createdValues, PropertyEdit.values] using finite, trivial⟩
  case h_8 value =>
    obtain ⟨children, decoded, ⟨rfl⟩⟩ := read
    exact ⟨DataValue.isFinite_of_decodeList? (proper value (by simp)) decoded, trivial⟩
  case h_12 value =>
    obtain ⟨children, decoded, ⟨rfl⟩⟩ := read
    exact ⟨DataValue.isFinite_of_decodeTable? (proper value (by simp)) decoded, trivial⟩
  case h_13 value | h_14 value =>
    obtain ⟨number, decoded, ⟨rfl⟩⟩ := read
    have finite := Wire.isFinite_float? (proper value (by simp)) decoded
    exact ⟨by simp [createdValues, Contents.values], finite⟩
  case h_1 | h_2 | h_7 =>
    obtain ⟨-, -, -, -, ⟨rfl⟩⟩ := read
    exact ⟨by simp [createdValues, ArrayEdit.values], trivial⟩
  all_goals
    obtain ⟨-, -, ⟨rfl⟩⟩ := read
    exact ⟨by simp [createdValues, Contents.values, ArrayEdit.values, PropertyEdit.values], trivial⟩

theorem isFinite_of_decodeAs {isNested : Bool} {members : List (String × Json)}
    (proper : (Json.object members).IsProper) {change : Change}
    (decoded : decodeAs isNested (.object members) = some change) : change.IsFinite := by
  simp only [decodeAs, Option.bind_eq_bind, Option.bind_eq_some_iff] at decoded
  obtain ⟨-, -, kind, -, fields, found, read⟩ := decoded
  exact isFinite_ofFields? (Wire.isProper_of_fields? proper found) read

end Change

namespace Edit

theorem decode?_encode {edit : Edit} (finite : edit.change.IsFinite)
    (dates : edit.change.DatesReadBack) : decode? edit.encode = some edit := by
  have agrees (name : String) (listed : name ∈ "type" :: edit.change.kind.fieldNames) :
      Keyed.find? name (Keyed.insert "id" edit.target.encode
        (Keyed.insert "noOp" (.bool edit.isNoOp) edit.change.members)) =
          Keyed.find? name edit.change.members := by
    obtain ⟨notId, notFlag⟩ := Change.fieldNames_free edit.change.kind name listed
    rw [Keyed.find?_insert, if_neg notId, Keyed.find?_insert, if_neg notFlag]
  have change := Change.decodeAs_of_agrees finite dates agrees true
  simp [encode, decode?, Keyed.find?_insert, Wire.bool?, change]

theorem isFinite_of_decode? {json : Json} (proper : json.IsProper) {edit : Edit}
    (decoded : decode? json = some edit) : edit.change.IsFinite := by
  cases json with
  | object members =>
      simp only [decode?, Option.bind_eq_bind, Option.pure_def, Option.bind_eq_some_iff] at decoded
      obtain ⟨-, -, target, -, rest⟩ := decoded
      split at rest <;> simp only [Option.bind_eq_some_iff] at rest <;>
        obtain ⟨isNoOp, -, change, read, ⟨rfl⟩⟩ := rest <;>
        exact Change.isFinite_of_decodeAs proper read
  | _ => cases decoded

end Edit

namespace Operation

def IsFinite (operation : Operation) : Prop :=
  ∀ edit ∈ operation.edits, edit.change.IsFinite

def DatesReadBack (operation : Operation) : Prop :=
  ∀ edit ∈ operation.edits, edit.change.DatesReadBack

mutual

theorem decode?_encode (operation : Operation) (finite : operation.IsFinite)
    (dates : operation.DatesReadBack) : decode? operation.encode = some operation := by
  cases operation with
  | single edit =>
      have read : Edit.decode? edit.encode = some edit :=
        Edit.decode?_encode (finite edit List.mem_cons_self) (dates edit List.mem_cons_self)
      rw [Edit.encode] at read
      rw [Operation.encode, Edit.encode, decode?, read]
  | group elements =>
      have notEdit : Edit.decode? (group elements).encode = none := rfl
      have read : decodeList (encodeList elements) = some elements :=
        decodeList_encodeList elements finite dates
      rw [Operation.encode] at notEdit
      simp [Operation.encode, decode?, notEdit, elementsField, decodeElements, read]

theorem decodeList_encodeList (elements : List Operation)
    (finite : ∀ edit ∈ groupEdits elements, edit.change.IsFinite)
    (dates : ∀ edit ∈ groupEdits elements, edit.change.DatesReadBack) :
    decodeList (encodeList elements) = some elements := by
  cases elements with
  | nil => rfl
  | cons first rest =>
      rw [groupEdits, List.forall_mem_append] at finite dates
      have firstRead := decode?_encode first finite.1 dates.1
      have restRead := decodeList_encodeList rest finite.2 dates.2
      simp only [encodeList, decodeList, firstRead, restRead]

end

theorem isFinite_group {elements : List Operation}
    (each : ∀ element ∈ elements, element.IsFinite) : (group elements).IsFinite := by
  intro edit listed
  rw [edits] at listed
  induction elements with
  | nil => cases listed
  | cons first rest ih =>
      rcases List.mem_append.mp listed with inFirst | inRest
      · exact each first List.mem_cons_self edit inFirst
      · exact ih (fun element later => each element (List.mem_cons_of_mem _ later)) inRest

theorem decodeList_eq_some {items : List Json} {elements : List Operation}
    (decoded : decodeList items = some elements) {element : Operation}
    (listed : element ∈ elements) : ∃ item ∈ items, decode? item = some element := by
  induction items generalizing elements with
  | nil =>
      cases decoded
      cases listed
  | cons item rest ih =>
      rw [decodeList] at decoded
      split at decoded
      · rename_i first others firstDecoded othersDecoded
        cases decoded
        rcases List.mem_cons.mp listed with rfl | later
        · exact ⟨item, List.mem_cons_self, firstDecoded⟩
        · obtain ⟨other, otherListed, otherDecoded⟩ := ih othersDecoded later
          exact ⟨other, List.mem_cons_of_mem _ otherListed, otherDecoded⟩
      · cases decoded

theorem elementsField_eq_some {members : List (String × Json)} {elements : List Operation}
    (decoded : elementsField members = some elements) :
    ∃ json ∈ members.map Prod.snd, decodeElements json = some elements := by
  induction members with
  | nil => cases decoded
  | cons entry rest ih =>
      rw [elementsField] at decoded
      split at decoded
      · exact ⟨entry.2, List.mem_cons_self, decoded⟩
      · obtain ⟨json, listed, found⟩ := ih decoded
        exact ⟨json, List.mem_cons_of_mem _ listed, found⟩

/-- The elements of a group are decoded two levels down, as the children of a container are. -/
theorem isFinite_of_decode? {json : Json} (proper : json.IsProper) {operation : Operation}
    (decoded : decode? json = some operation) : operation.IsFinite := by
  have both : (∀ operation, decode? json = some operation → operation.IsFinite) ∧
      ∀ elements, decodeElements json = some elements → ∀ element ∈ elements, element.IsFinite := by
    clear decoded operation
    induction json using Json.induction with
    | step json ih =>
        have inner (child : Json) (inside : child ∈ json.children) :=
          ih child inside (proper.child inside)
        constructor
        · intro operation decoded
          cases json with
          | object members =>
              rw [decode?] at decoded
              split at decoded
              · rename_i edit editDecoded
                cases decoded
                have finite := Edit.isFinite_of_decode? proper editDecoded
                simpa [IsFinite, edits] using finite
              · obtain ⟨elements, inField, rfl⟩ := Option.map_eq_some_iff.mp decoded
                obtain ⟨field, inside, found⟩ := elementsField_eq_some inField
                exact isFinite_group ((inner field inside).2 elements found)
          | array items =>
              rcases items with _ | ⟨field, _ | ⟨next, rest⟩⟩
              · cases decoded
              · obtain ⟨elements, found, rfl⟩ := Option.map_eq_some_iff.mp decoded
                exact isFinite_group ((inner field (by simp [Json.children])).2 elements found)
              · cases decoded
          | _ => cases decoded
        · intro elements decoded element listed
          cases json with
          | array items =>
              obtain ⟨item, inside, found⟩ := decodeList_eq_some decoded listed
              exact (inner item inside).1 element found
          | _ => cases decoded
  exact both.1 operation decoded

end Operation

end SharedDocument
