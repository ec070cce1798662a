import SharedDocument.Proofs.Wire.Operation
import SharedDocument.Wire.Session

/-! Values, operations and the messages that carry operations survive the wire: each is decoded from its
encoding, no two share an encoding, and whatever is decoded can be encoded again to the same effect. -/

namespace SharedDocument

namespace CommittedOperation

def IsFinite (committed : CommittedOperation) : Prop :=
  committed.operation.IsFinite

def DatesReadBack (committed : CommittedOperation) : Prop :=
  committed.timestamp.ReadsBack ∧ committed.operation.DatesReadBack

theorem decode?_encode (committed : CommittedOperation) (finite : committed.IsFinite)
    (dates : committed.DatesReadBack) : decode? committed.encode = some committed := by
  have time := Wire.instant?_text dates.1
  have operation := committed.operation.decode?_encode finite dates.2
  simp [decode?, encode, Wire.fields?, Keyed.find?, Wire.text?, Wire.word?_word, time, operation]

theorem isFinite_of_decode? {json : Json} (proper : json.IsProper) {committed : CommittedOperation}
    (decoded : decode? json = some committed) : committed.IsFinite := by
  rw [decode?] at decoded
  split at decoded
  · rename_i sessionId version timestamp operation found
    simp only [Option.bind_eq_bind, Option.pure_def, Option.bind_eq_some_iff] at decoded
    obtain ⟨-, -, -, -, -, -, read, operationRead, ⟨rfl⟩⟩ := decoded
    have inside := Wire.isProper_of_fields? proper found operation (by simp)
    exact Operation.isFinite_of_decode? inside operationRead
  · cases decoded

end CommittedOperation

namespace QueuedOperation

def IsFinite (queued : QueuedOperation) : Prop :=
  queued.operation.IsFinite

def DatesReadBack (queued : QueuedOperation) : Prop :=
  queued.timestamp.ReadsBack ∧ queued.operation.DatesReadBack

theorem decode?_encode (queued : QueuedOperation) (finite : queued.IsFinite)
    (dates : queued.DatesReadBack) : decode? queued.encode = some queued := by
  have time := Wire.instant?_text dates.1
  have operation := queued.operation.decode?_encode finite dates.2
  simp [decode?, encode, Wire.fields?, Keyed.find?, Wire.text?, Wire.word?_word, time, operation]

theorem isFinite_of_decode? {json : Json} (proper : json.IsProper) {queued : QueuedOperation}
    (decoded : decode? json = some queued) : queued.IsFinite := by
  rw [decode?] at decoded
  split at decoded
  · rename_i clientId seqNo contextVersion timestamp operation found
    simp only [Option.bind_eq_bind, Option.pure_def, Option.bind_eq_some_iff] at decoded
    obtain ⟨-, -, -, -, -, -, -, -, read, operationRead, ⟨rfl⟩⟩ := decoded
    have inside := Wire.isProper_of_fields? proper found operation (by simp)
    exact Operation.isFinite_of_decode? inside operationRead
  · cases decoded

end QueuedOperation

namespace Wire

structure Faithful {α : Type} (encode : α → Json) (decode? : Json → Option α)
    (IsFinite DatesReadBack : α → Prop) : Prop where
  roundTrip : ∀ item, IsFinite item → DatesReadBack item → decode? (encode item) = some item
  injective : ∀ left right, IsFinite left → DatesReadBack left → IsFinite right →
    DatesReadBack right → encode left = encode right → left = right
  /-- Decoded JSON may be spelled in many ways, and the encoding is the one canonical spelling. -/
  canonical : ∀ json item, json.IsProper → decode? json = some item → DatesReadBack item →
    IsFinite item ∧ decode? (encode item) = some item ∧
      ∀ other, IsFinite other → DatesReadBack other → decode? (encode other) = some item →
        encode other = encode item

theorem Faithful.of {α : Type} {encode : α → Json} {decode? : Json → Option α}
    {IsFinite DatesReadBack : α → Prop}
    (roundTrip : ∀ item, IsFinite item → DatesReadBack item → decode? (encode item) = some item)
    (finite : ∀ json item, json.IsProper → decode? json = some item → IsFinite item) :
    Faithful encode decode? IsFinite DatesReadBack where
  roundTrip := roundTrip
  injective left right leftFinite leftDates rightFinite rightDates same := by
    have read := roundTrip left leftFinite leftDates
    rw [same, roundTrip right rightFinite rightDates] at read
    exact (Option.some.inj read).symm
  canonical json item proper decoded dates := by
    have itemFinite := finite json item proper decoded
    refine ⟨itemFinite, roundTrip item itemFinite dates, ?_⟩
    intro other otherFinite otherDates read
    rw [roundTrip other otherFinite otherDates] at read
    rw [Option.some.inj read]

theorem faithful_operations_values_messages :
    Faithful Operation.encode Operation.decode? Operation.IsFinite Operation.DatesReadBack ∧
      Faithful DataValue.encode DataValue.decode? DataValue.IsFinite DataValue.DatesReadBack ∧
      Faithful CommittedOperation.encode CommittedOperation.decode? CommittedOperation.IsFinite
        CommittedOperation.DatesReadBack ∧
      Faithful QueuedOperation.encode QueuedOperation.decode? QueuedOperation.IsFinite
        QueuedOperation.DatesReadBack :=
  ⟨.of Operation.decode?_encode fun _ _ proper read => Operation.isFinite_of_decode? proper read,
    .of (fun _ => DataValue.decodeAs_encode false)
      fun _ _ proper read => DataValue.isFinite_of_decodeAs proper read,
    .of CommittedOperation.decode?_encode
      fun _ _ proper read => CommittedOperation.isFinite_of_decode? proper read,
    .of QueuedOperation.decode?_encode
      fun _ _ proper read => QueuedOperation.isFinite_of_decode? proper read⟩

/-- A group inside a group, with a no-op, and a number and a date below a created value. -/
theorem decode?_encode_nestedGroup :
    let value : DataValue := .object ⟨"o"⟩
      [("at", .date ⟨"d"⟩ ⟨1700000000, 250000000⟩), ("size", .number ⟨"n"⟩ 2.5)]
    let operation : Operation :=
      .group [.single (.on ⟨"list"⟩ (.array (.insert ⟨3, by decide⟩ value))),
        .group [.single (Edit.on ⟨"size"⟩ (.addNumber 0.5)).asNoOp, .group []]]
    operation.IsFinite ∧ operation.DatesReadBack ∧
      Operation.decode? operation.encode = some operation := by
  intro value operation
  have number : (2.5 : Float).isFinite = true := by decide +kernel
  have sum : (0.5 : Float).isFinite = true := by decide +kernel
  have date : Instant.ReadsBack ⟨1700000000, 250000000⟩ := by
    unfold Instant.ReadsBack
    decide +kernel
  have valueFinite : value.IsFinite := by
    refine DataValue.throughout_iff.mpr ⟨trivial, ?_⟩
    simpa [value, DataValue.childValues] using
      And.intro (DataValue.Throughout.leaf rfl trivial) (DataValue.Throughout.leaf rfl number)
  have valueDates : value.DatesReadBack := by
    refine DataValue.throughout_iff.mpr ⟨trivial, ?_⟩
    simpa [value, DataValue.childValues] using
      And.intro (DataValue.Throughout.leaf rfl date) (DataValue.Throughout.leaf rfl trivial)
  have finite : operation.IsFinite := by
    simpa [Operation.IsFinite, operation, Operation.edits, Operation.groupEdits, Change.IsFinite,
      Change.createdValues, ArrayEdit.values, Edit.on, Edit.asNoOp] using ⟨valueFinite, sum⟩
  have dates : operation.DatesReadBack := by
    simpa [Operation.DatesReadBack, operation, Operation.edits, Operation.groupEdits,
      Change.DatesReadBack, Change.createdValues, ArrayEdit.values, Edit.on, Edit.asNoOp]
      using valueDates
  exact ⟨finite, dates, faithful_operations_values_messages.1.roundTrip operation finite dates⟩

end Wire

end SharedDocument
