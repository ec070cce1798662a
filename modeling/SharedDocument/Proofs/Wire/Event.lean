import SharedDocument.Proofs.Document.Departures
import SharedDocument.Proofs.Document.Listening
import SharedDocument.Proofs.Document.Mirrors
import SharedDocument.Proofs.Wire.Value
import SharedDocument.Wire.Document

/-! Change events on the wire. A value that is null is encoded like one that is missing, so a receiver
takes it for missing, and every other part of an event arrives as it was sent. As long as numbers are
finite this meets the departure of a null and nothing else. -/

namespace SharedDocument

/-- The JSON of a field, unless a reader takes the field for missing. -/
def Json.unlessNull : Json → Option Json
  | .null => none
  | json => some json

theorem Json.bind_unlessNull_eq_iff {field : Option Json} :
    field.bind unlessNull = field ↔ field ≠ some .null := by
  rcases field with _ | _ | _ <;> simp [unlessNull]

/-- What a receiver makes of the encoding of an event. -/
def ChangeEvent.received (event : ChangeEvent) : ChangeEvent :=
  { event with
    oldValue := event.oldValue.bind Json.unlessNull
    newValue := event.newValue.bind Json.unlessNull }

def Path.HasWordPositions (path : Path) : Prop :=
  ∀ position, .index position ∈ path → position < 0x10000000000000000

/-! One event. -/

theorem OperationKind.decode?_encode (kind : OperationKind) : decode? kind.encode = some kind := by
  cases kind <;> rfl

theorem ChangeKind.decode?_encode (kind : ChangeKind) : decode? kind.encode = some kind := by
  cases kind with
  | applied kind => simp [encode, decode?, kind.decode?_encode]
  | detached => rfl

theorem PathElement.decode?_index {position : Nat} (small : position < 0x10000000000000000) :
    decode? (encode (.index position)) = some (.index position) := by
  simp [encode, decode?, Wire.natural?, Wire.word?_ofNat, Word.ofNat?, small]

theorem Path.decode?_encode {path : Path} (words : path.HasWordPositions) :
    decode? path.encode = some path := by
  unfold decode? encode Wire.list?
  induction path with
  | nil => rfl
  | cons element rest ih =>
      have first : PathElement.decode? element.encode = some element := by
        cases element with
        | key name => rfl
        | index position => exact PathElement.decode?_index (words position List.mem_cons_self)
      have others := ih fun position listed => words position (List.mem_cons_of_mem _ listed)
      simp only at others
      simp [first, others]

theorem Wire.optional?_some (field : Option Json) :
    optional? some (some (field.getD .null)) = some (field.bind Json.unlessNull) := by
  rcases field with _ | _ | _ <;> rfl

theorem Wire.optional?_text (field : Option String) :
    optional? text? (some (option .string field)) = some field := by
  cases field <;> rfl

namespace ChangeEvent

variable {event : ChangeEvent}

theorem decode?_encode (words : event.path.HasWordPositions) :
    decode? event.encode = some event.received := by
  simp [decode?, encode, Wire.fields?, Keyed.find?, Path.decode?_encode words,
    event.kind.decode?_encode, Wire.optional?_some, Wire.optional?_text, Wire.bool?, received]

theorem received_eq_iff :
    event.received = event ↔ event.oldValue ≠ some .null ∧ event.newValue ≠ some .null := by
  rw [← Json.bind_unlessNull_eq_iff, ← Json.bind_unlessNull_eq_iff]
  cases event
  simp [received]

end ChangeEvent

namespace Arena

variable {arena after : Arena} {value : DataValue} {origin : Origin}

/-! What stands in an arena. -/

def HasFiniteNumbers (arena : Arena) : Prop :=
  ∀ id node number, arena.node? id = some node → node.data = .number number → number.isFinite = true

def HasWordPositions (arena : Arena) : Prop :=
  ∀ id node children, arena.node? id = some node → node.data = .array children →
    children.length ≤ 0x10000000000000000

def HoldsNull (arena : Arena) (id : NodeId) : Prop :=
  ∃ node, arena.node? id = some node ∧ node.data = .null

theorem json_eq_null_iff (finite : arena.HasFiniteNumbers) {id : NodeId} :
    arena.json id = some .null ↔ arena.HoldsNull id := by
  unfold json HoldsNull
  cases size : arena.size with
  | zero =>
      have empty : arena.nodes = [] := List.length_eq_zero_iff.mp size
      simp [jsonBelow, node?, empty]
  | succ depth =>
      rw [jsonBelow, Option.map_eq_some_iff]
      refine exists_congr fun node => and_congr_right fun found => ?_
      cases held : node.data with
      | number number => simp [Json.number, finite id node number found held]
      | _ => simp

theorem Holds.not_holdsNull {parent : Option NodeId} (holds : arena.Holds parent value)
    (filled : value.kind ≠ .null) : ¬ arena.HoldsNull value.id := by
  rintro ⟨node, stored, null⟩
  rw [holds.root, Option.some.injEq] at stored
  subst stored
  rw [← value.kind_data, show value.data = .null from null] at filled
  exact filled rfl

theorem hasWordPositions_of_locate (fits : arena.HasWordPositions) {id target : NodeId} {path : Path}
    (found : arena.locate id path = some target) : path.HasWordPositions := by
  induction path generalizing id with
  | nil => exact fun _ listed => absurd listed List.not_mem_nil
  | cons element rest ih =>
      unfold locate at found
      split at found
      · cases found
      · rename_i child step
        obtain ⟨node, stored, childFound⟩ := Option.bind_eq_some_iff.mp step
        intro position listed
        rcases List.mem_cons.mp listed with rfl | later
        · cases held : node.data with
          | array children =>
              rw [held] at childFound
              obtain ⟨inside, -⟩ := List.getElem?_eq_some_iff.mp childFound
              exact Nat.lt_of_lt_of_le inside (fits id node children stored held)
          | _ => simp [held, NodeData.childAt?] at childFound
        · exact ih found position later

/-! The events of an operation. -/

def Passes (arena : Arena) (origin : Origin) (edits : List Edit) (edit : Edit) (before after : Arena)
    (events : List ChangeEvent) : Prop :=
  ∃ done rest earlier, edits = done ++ edit :: rest ∧ edit.isNoOp = false ∧
    arena.applyEdits origin done = .ok (before, earlier) ∧
    before.applyEdit origin edit = .ok (after, events)

theorem Passes.applied {edits : List Edit} {edit : Edit} {before : Arena} {events : List ChangeEvent}
    (passes : arena.Passes origin edits edit before after events) :
    before.applyEdit origin edit = .ok (after, events) := by
  obtain ⟨_, _, _, -, -, -, applied⟩ := passes
  exact applied

theorem Passes.of_single {edit found : Edit} {before : Arena} {events : List ChangeEvent}
    (passes : arena.Passes origin [edit] found before after events) :
    before = arena ∧ arena.applyEdit origin edit = .ok (after, events) := by
  obtain ⟨done, rest, earlier, split, -, reached, applied⟩ := passes
  obtain _ | ⟨first, done⟩ := done
  · cases split
    cases reached
    exact ⟨rfl, applied⟩
  · cases done <;> cases split

theorem Represents.exists_passes (represents : arena.Represents value) {edits : List Edit}
    (ordered : ∀ edit ∈ edits, edit.change.Ordered) {result : Arena × List ChangeEvent}
    (succeeds : arena.applyEdits origin edits = .ok result) {event : ChangeEvent}
    (told : event ∈ result.2) :
    ∃ edit before after events, arena.Passes origin edits edit before after events ∧
      event ∈ events ∧ edit.change.Ordered ∧ ∃ value, before.Represents value := by
  induction edits generalizing arena value result with
  | nil =>
      cases succeeds
      cases told
  | cons edit rest ih =>
      obtain ⟨editOrdered, restOrdered⟩ := List.forall_mem_cons.mp ordered
      cases idle : edit.isNoOp with
      | true =>
          rw [applyEdits, if_pos idle] at succeeds
          obtain ⟨found, before, after, events, ⟨done, later, earlier, rfl, live, passed, applied⟩,
            heard⟩ := ih represents restOrdered succeeds told
          refine ⟨found, before, after, events, ⟨edit :: done, later, earlier, rfl, live, ?_, applied⟩,
            heard⟩
          rw [applyEdits, if_pos idle]
          exact passed
      | false =>
          obtain ⟨edited, reached, applied, further, rfl⟩ := (applyEdits_cons idle).mp succeeds
          rcases List.mem_append.mp told with here | later
          · exact ⟨edit, arena, edited.1, edited.2, ⟨[], rest, [], rfl, idle, rfl, applied⟩, here,
              editOrdered, value, represents⟩
          · obtain ⟨next, edits, -, -⟩ := represents.follows_applyEdit editOrdered applied
            obtain ⟨found, before, after, events, ⟨done, later, earlier, rfl, live, passed, last⟩,
              heard⟩ := ih edits restOrdered further later
            exact ⟨found, before, after, events, ⟨edit :: done, later, _, rfl, live,
              (applyEdits_cons idle).mpr ⟨edited, _, applied, passed, rfl⟩, last⟩, heard⟩

/-- An event of an edit carries JSON that its node has, at a path that leads to it. Only a departure
can be about a null. -/
theorem Represents.cases_of_event (represents : arena.Represents value) {edit : Edit}
    (ordered : edit.change.Ordered) {events : List ChangeEvent}
    (succeeds : arena.applyEdit origin edit = .ok (after, events)) {event : ChangeEvent}
    (told : event ∈ events) :
    arena.locate value.id event.path = some event.nodeId ∧
      event.oldValue = arena.json event.nodeId ∧
      ((event.kind = .detached ∧ event.newValue = none) ∨
        (event.kind = .applied edit.kind ∧ event.newValue = after.json event.nodeId ∧
          ¬ arena.HoldsNull event.nodeId ∧ ¬ after.HoldsNull event.nodeId)) := by
  by_cases detached : arena.isDetached edit.target = true
  · cases origin with
    | own => simp [Arena.applyEdit, detached] at succeeds
    | peer sessionId =>
        rw [applyEdit_skip detached] at succeeds
        cases succeeds
        cases told
  · have attached := Bool.not_eq_true _ ▸ detached
    obtain ⟨-, edited, -⟩ := represents.applyEdit ordered attached succeeds
    obtain ⟨parent, inner, path, departures, admits, -, located, reports, oldJson, newJson,
      (same : events = _)⟩ := represents.report_applyEdit ordered attached succeeds
    have departed := reports.departures represents edited admits located
    rw [same] at told
    rcases List.mem_append.mp told with leaves | changes
    · obtain ⟨old, stood, form⟩ := departed.form event leaves
      refine ⟨(departed.place event leaves).1, ?_, Or.inl ?_⟩
      · rw [stood, form]
        cases origin <;> rfl
      · rw [form]
        cases origin <;> exact ⟨rfl, rfl⟩
    · have keptKind : inner.kind ≠ .null := by
        rw [admits.fits.kind]
        cases edit.change.kind <;> decide
      have editedOccurs := admits.occurs.editAt_self edit.change.applyTo represents.distinct
      rw [admits.target] at editedOccurs
      have wasFilled := (represents.occurs_holds admits.occurs).not_holdsNull keptKind
      have isFilled := (edited.occurs_holds editedOccurs).not_holdsNull
        (Change.kind_applyTo edit.change inner ▸ keptKind)
      rw [admits.target] at wasFilled
      rw [Change.id_applyTo, admits.target] at isFilled
      have found : arena.locate value.id path = some edit.target := by
        rw [locate_eq represents.holds represents.ordered, located, Option.map_some, admits.target]
      obtain rfl := List.mem_singleton.mp changes
      rw [← oldJson, ← newJson]
      cases origin <;> exact ⟨found, rfl, Or.inr ⟨rfl, rfl, wasFilled, isFilled⟩⟩

end Arena

namespace Document

variable {document : Document}

theorem mem_of_mem_heard {origin : Origin} {events : List ChangeEvent} {delivery : Delivery}
    (delivered : delivery ∈ document.heard origin events) : delivery.event ∈ events := by
  rw [heard] at delivered
  split at delivered
  · obtain ⟨event, told, received⟩ := List.mem_flatMap.mp delivered
    obtain ⟨_, -, rfl⟩ := List.mem_map.mp received
    exact told
  · cases delivered

/-- An event that a document delivers can be read from its encoding, and what is read is the event but
for values that are null. While all numbers are finite it is the event itself, unless the event reports
that a null has left. -/
theorem decode?_encode_delivery (arises : document.Arises) (origin : Origin) {operation : Operation}
    (ordered : operation.Ordered) {result : Document × List Delivery}
    (applied : document.apply origin operation = .ok result) {delivery : Delivery}
    (delivered : delivery ∈ result.2) :
    ∃ edit before after events,
      document.arena.Passes origin operation.edits edit before after events ∧
        delivery.event ∈ events ∧
        (before.HasWordPositions →
          ChangeEvent.decode? delivery.event.encode = some delivery.event.received) ∧
        (before.HasWordPositions → before.HasFiniteNumbers → after.HasFiniteNumbers →
          (ChangeEvent.decode? delivery.event.encode = some delivery.event ↔
            ¬ (delivery.event.kind = .detached ∧ before.HoldsNull delivery.event.nodeId))) := by
  obtain ⟨value, clashing, ⟨represents, -, -⟩, -⟩ := arises.holds
  obtain ⟨-, edited, changed, rfl⟩ := apply_eq_ok_iff.mp applied
  obtain ⟨edit, before, after, events, passes, told, editOrdered, standing, stands⟩ :=
    represents.exists_passes ordered changed (mem_of_mem_heard delivered)
  obtain ⟨located, old, shape⟩ := stands.cases_of_event editOrdered passes.applied told
  have read (words : before.HasWordPositions) :=
    ChangeEvent.decode?_encode (Arena.hasWordPositions_of_locate words located)
  refine ⟨edit, before, after, events, passes, told, read, fun words wasFinite isFinite => ?_⟩
  rw [read words, Option.some.injEq, ChangeEvent.received_eq_iff, old, Ne,
    Arena.json_eq_null_iff wasFinite]
  rcases shape with ⟨kind, new⟩ | ⟨kind, new, wasFilled, isFilled⟩
  · simp [kind, new]
  · rw [new, Ne, Arena.json_eq_null_iff isFinite]
    simp [kind, wasFilled, isFilled]

/-- A null that is removed from an array: what arrives of its departure lacks the null, and what
arrives of the array is what was sent. -/
theorem decode?_encode_null_departure :
    ∃ (document : Document) (result : Document × List Delivery), document.Arises ∧
      document.apply .own (.single (.on ⟨"list"⟩ (.array (.remove .zero)))) = .ok result ∧
        result.2.map (fun delivery => delivery.event.nodeId) = [⟨"leaf"⟩, ⟨"list"⟩] ∧
        ∀ delivery ∈ result.2,
          ChangeEvent.decode? delivery.event.encode = some delivery.event.received ∧
            (ChangeEvent.decode? delivery.event.encode = some delivery.event ↔
              delivery.event.kind = .applied .arrayRemove) := by
  have ordered : (DataValue.array ⟨"list"⟩ [.null ⟨"leaf"⟩]).Ordered :=
    .intro trivial (by simpa [DataValue.childValues] using .leaf rfl)
  have arises := (Arises.new ordered rfl).subscribe .all
  have operationOrdered :
      (Operation.single (.on ⟨"list"⟩ (.array (.remove .zero)))).Ordered := by
    simp [Operation.Ordered, Operation.edits, Edit.on, Change.Ordered, Change.createdValues,
      ArrayEdit.values]
  refine ⟨_, _, arises, rfl, rfl, fun delivery delivered => ?_⟩
  obtain ⟨edit, before, after, events, passes, told, read, same⟩ :=
    decode?_encode_delivery arises .own operationOrdered rfl delivered
  obtain ⟨rfl, made⟩ := Arena.Passes.of_single passes
  cases made
  let started := Arena.attach none (.array ⟨"list"⟩ [.null ⟨"leaf"⟩]) .empty
  have stood (id : NodeId) (node : Node) (stored : started.node? id = some node) :
      node.data = .null ∨ node.data = .array [⟨"leaf"⟩] := by
    have listed : (id, node) ∈ [(⟨"leaf"⟩, ⟨⟨"leaf"⟩, some ⟨"list"⟩, .null⟩),
        (⟨"list"⟩, ⟨⟨"list"⟩, none, .array [⟨"leaf"⟩]⟩)] := Keyed.mem_of_find? stored
    simp only [List.mem_cons, Prod.mk.injEq, List.not_mem_nil, or_false] at listed
    rcases listed with ⟨-, rfl⟩ | ⟨-, rfl⟩
    · exact Or.inl rfl
    · exact Or.inr rfl
  have words : started.HasWordPositions := by
    intro id node children stored held
    rcases stood id node stored with data | data <;> cases held.symm.trans data
    decide
  have wasFinite : started.HasFiniteNumbers := by
    intro id node number stored held
    rcases stood id node stored with data | data <;> cases held.symm.trans data
  refine ⟨read words, (same words wasFinite ?_).trans ?_⟩
  · intro id node number stored held
    have listed : (id, node) ∈ [(⟨"list"⟩, ⟨⟨"list"⟩, none, .array []⟩)] := Keyed.mem_of_find? stored
    obtain ⟨-, rfl⟩ := Prod.mk.inj (List.mem_singleton.mp listed)
    cases held
  · rcases List.mem_cons.mp told with left | later
    · rw [left]
      exact iff_of_false (fun kept => kept ⟨rfl, _, rfl, rfl⟩) (by decide)
    · rw [List.mem_singleton.mp later]
      exact iff_of_true (fun lost => absurd lost.1 (by decide)) rfl

end Document

end SharedDocument
