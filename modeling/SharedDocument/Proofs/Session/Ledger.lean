import Mathlib.Data.List.Flatten
import SharedDocument.Proofs.Session.Calls

/-! What a session has been through. The log lists the operations that its document has incorporated
in the order of the server; besides, the ledger keeps which operations were submitted and which
arrived from other sessions. -/

namespace SharedDocument

open DataValue (Occurs)

structure LogEntry where
  sessionId : String
  operation : Operation

def Document.replay : Document → List LogEntry → Except DocumentError Document
  | document, [] => .ok document
  | document, entry :: rest => do
      let reached ← document.incorporate entry.sessionId entry.operation
      reached.replay rest

theorem Document.replay_append (document : Document) (before after : List LogEntry) :
    document.replay (before ++ after) = (document.replay before >>= fun reached =>
      reached.replay after) := by
  induction before generalizing document with
  | nil => rfl
  | cons entry rest ih =>
      simp only [List.cons_append, replay, ih, bind_assoc]

theorem Document.replay_concat {document reached : Document} {log : List LogEntry}
    (replayed : document.replay log = .ok reached) (entry : LogEntry) :
    document.replay (log ++ [entry]) = reached.incorporate entry.sessionId entry.operation := by
  rw [replay_append, replayed]
  exact bind_pure (reached.incorporate entry.sessionId entry.operation)

structure Arrival where
  before : List LogEntry
  entry : LogEntry

structure Ledger where
  log : List LogEntry
  submitted : List Operation
  arrivals : List Arrival

namespace Replica

def queuedEntries (replica : Replica) : List LogEntry :=
  replica.pending.map fun entry => ⟨replica.config.sessionId, entry.operation⟩

end Replica

namespace Ledger

def empty : Ledger :=
  ⟨[], [], []⟩

def submit (ledger : Ledger) (operation : Operation) : Ledger :=
  { ledger with submitted := ledger.submitted ++ [operation] }

def enter (ledger : Ledger) (entries : List LogEntry) : Ledger :=
  { ledger with log := ledger.log ++ entries }

def acknowledge (ledger : Ledger) (replica : Replica) (outcome : Replica.Outcome Unit) : Ledger :=
  if outcome.2.isOk then ledger.enter (replica.queuedEntries.take 1) else ledger

def arrive (ledger : Ledger) (entry : LogEntry) : Ledger :=
  { ledger with arrivals := ledger.arrivals ++ [⟨ledger.log, entry⟩] }

/-- An accepted operation of another session enters the log as delivered, and one of the own session
is an acknowledgment. -/
def incorporate (ledger : Ledger) (replica : Replica) (committed : CommittedOperation) : Ledger :=
  if committed.version ≠ replica.version then ledger
  else if committed.sessionId = replica.config.sessionId then
    ledger.acknowledge replica (replica.incorporate committed)
  else
    let entry : LogEntry := ⟨committed.sessionId, committed.operation⟩
    if (replica.incorporate committed).2.isOk then (ledger.arrive entry).enter [entry]
    else ledger.arrive entry

def replay (ledger : Ledger) (replica : Replica) : List CommittedOperation → Ledger
  | [] => ledger
  | committed :: rest =>
      if (replica.incorporate committed).2.isOk then
        (ledger.incorporate replica committed).replay (replica.incorporate committed).1 rest
      else ledger.incorporate replica committed

def record (ledger : Ledger) (replica : Replica) : Call → Ledger
  | .submit now operation =>
      if (replica.submit now operation).2.isOk then ledger.submit operation else ledger
  | .receive committed =>
      if replica.state.isLive then ledger.incorporate replica committed else ledger
  | .acknowledge acknowledgment =>
      ledger.acknowledge replica (replica.acknowledge acknowledgment)
  | .completeResync (.ok events) =>
      if replica.state = .resyncing then ledger.replay replica events else ledger
  | _ => ledger

end Ledger

namespace Replica

def run (replica : Replica) (ledger : Ledger) : List Call → Replica × Ledger
  | [] => (replica, ledger)
  | call :: rest => (replica.perform call).1.run (ledger.record replica call) rest

theorem run_append (replica : Replica) (ledger : Ledger) (earlier later : List Call) :
    replica.run ledger (earlier ++ later) =
      (replica.run ledger earlier).1.run (replica.run ledger earlier).2 later := by
  induction earlier generalizing replica ledger with
  | nil => rfl
  | cons call rest ih => exact ih (replica.perform call).1 (ledger.record replica call)

theorem exists_of_mem_faults {replica : Replica} (ledger : Ledger) {calls : List Call}
    {fault : SessionError} (listed : fault ∈ replica.faults calls) :
    ∃ earlier call later, calls = earlier ++ call :: later ∧
      ((replica.run ledger earlier).1.perform call).2 = some fault := by
  induction calls generalizing replica ledger with
  | nil => exact absurd listed List.not_mem_nil
  | cons call rest ih =>
      rcases List.mem_append.mp listed with first | listedLater
      · exact ⟨[], call, rest, rfl, Option.mem_toList.mp first⟩
      · obtain ⟨earlier, other, later, rfl, fails⟩ := ih (ledger.record replica call) listedLater
        exact ⟨call :: earlier, other, later, rfl, fails⟩

end Replica

namespace Ledger

variable {ledger later last : Ledger} {base : Document} {limit : Nat}

structure Extends (later ledger : Ledger) : Prop where
  log : ledger.log <+: later.log
  submitted : ledger.submitted.Sublist later.submitted
  arrivals : ledger.arrivals.Sublist later.arrivals

theorem Extends.refl (ledger : Ledger) : ledger.Extends ledger :=
  ⟨List.prefix_rfl, .refl _, .refl _⟩

theorem Extends.trans (newer : last.Extends later) (older : later.Extends ledger) :
    last.Extends ledger :=
  ⟨older.log.trans newer.log, older.submitted.trans newer.submitted,
    older.arrivals.trans newer.arrivals⟩

theorem submit_extends (ledger : Ledger) (operation : Operation) :
    (ledger.submit operation).Extends ledger :=
  ⟨List.prefix_rfl, List.sublist_append_left _ _, .refl _⟩

theorem enter_extends (ledger : Ledger) (entries : List LogEntry) :
    (ledger.enter entries).Extends ledger :=
  ⟨List.prefix_append _ _, .refl _, .refl _⟩

theorem arrive_extends (ledger : Ledger) (entry : LogEntry) :
    (ledger.arrive entry).Extends ledger :=
  ⟨List.prefix_rfl, .refl _, List.sublist_append_left _ _⟩

theorem acknowledge_extends (ledger : Ledger) (replica : Replica) (outcome : Replica.Outcome Unit) :
    (ledger.acknowledge replica outcome).Extends ledger := by
  unfold acknowledge
  split
  · exact enter_extends _ _
  · exact .refl _

theorem incorporate_extends (ledger : Ledger) (replica : Replica) (committed : CommittedOperation) :
    (ledger.incorporate replica committed).Extends ledger := by
  unfold incorporate
  split
  · exact .refl _
  · split
    · exact acknowledge_extends _ _ _
    · simp only
      split
      · exact (enter_extends _ _).trans (arrive_extends _ _)
      · exact arrive_extends _ _

theorem replay_extends (ledger : Ledger) (replica : Replica) (events : List CommittedOperation) :
    (ledger.replay replica events).Extends ledger := by
  induction events generalizing ledger replica with
  | nil => exact .refl _
  | cons committed rest ih =>
      unfold replay
      split
      · exact (ih _ _).trans (incorporate_extends _ _ _)
      · exact incorporate_extends _ _ _

theorem record_extends (ledger : Ledger) (replica : Replica) (call : Call) :
    (ledger.record replica call).Extends ledger := by
  unfold record
  split
  · split
    · exact submit_extends _ _
    · exact .refl _
  · split
    · exact incorporate_extends _ _ _
    · exact .refl _
  · exact acknowledge_extends _ _ _
  · split
    · exact replay_extends _ _ _
    · exact .refl _
  · exact .refl _

theorem run_extends (replica : Replica) (ledger : Ledger) (calls : List Call) :
    (replica.run ledger calls).2.Extends ledger := by
  induction calls generalizing replica ledger with
  | nil => exact .refl _
  | cons call rest ih => exact (ih _ _).trans (record_extends _ _ _)

def operations (ledger : Ledger) : List Operation :=
  ledger.submitted ++ ledger.arrivals.map fun arrival => arrival.entry.operation

def edits (ledger : Ledger) : List Edit :=
  ledger.operations.flatMap Operation.edits

theorem edits_submit (ledger : Ledger) (operation : Operation) :
    (ledger.submit operation).edits.Perm (ledger.edits ++ operation.edits) := by
  simp only [edits, operations, submit, List.flatMap_append, List.flatMap_singleton, List.append_assoc]
  exact List.perm_append_comm.append_left _

theorem edits_enter (ledger : Ledger) (entries : List LogEntry) :
    (ledger.enter entries).edits = ledger.edits := rfl

theorem mem_arrive (ledger : Ledger) (entry : LogEntry) :
    ⟨ledger.log, entry⟩ ∈ (ledger.arrive entry).arrivals :=
  List.mem_append_right _ List.mem_cons_self

theorem edits_arrive (ledger : Ledger) (entry : LogEntry) :
    (ledger.arrive entry).edits = ledger.edits ++ entry.operation.edits := by
  simp only [edits, operations, arrive, List.map_append, List.flatMap_append, List.map_singleton,
    List.flatMap_singleton, List.append_assoc]

/-- The kind with which a node was created: by one of the operations, or before them. -/
def Recorded (base : Document) (ledger : Ledger) (id : NodeId) (kind : NodeKind) : Prop :=
  (∃ node, base.arena.node? id = some node ∧ node.data.kind = kind) ∨
    ∃ edit ∈ ledger.edits, ∃ created ∈ edit.change.createdValues, ∃ outerParent parent inner,
      Occurs outerParent created parent inner ∧ inner.id = id ∧ inner.kind = kind

theorem Recorded.exists_node {id : NodeId} {kind : NodeKind} (recorded : ledger.Recorded base id kind)
    (notCreated : id ∉ Edit.allCreatedIds ledger.edits) :
    ∃ node, base.arena.node? id = some node ∧ node.data.kind = kind := by
  refine recorded.resolve_right ?_
  rintro ⟨edit, listed, created, createdListed, _, _, inner, occurs, rfl, -⟩
  refine notCreated (List.mem_flatMap.mpr ⟨edit, listed, ?_⟩)
  exact List.mem_flatMap.mpr ⟨created, createdListed, occurs.id_mem⟩

/-- What is asked of the operations: those submitted are plain, and those that arrive replay after the
log and are for the kinds of their targets; no node is created twice; and nothing grows beyond the
largest word. -/
structure Fair (base : Document) (limit : Nat) (ledger : Ledger) : Prop where
  plain : ∀ operation ∈ ledger.submitted, operation.Plain
  ordered : ∀ arrival ∈ ledger.arrivals, arrival.entry.operation.Ordered
  notNumeric : ∀ arrival ∈ ledger.arrivals, ∀ edit ∈ arrival.entry.operation.edits,
    ¬ edit.change.IsNumeric
  kinds : ∀ arrival ∈ ledger.arrivals, ∀ edit ∈ arrival.entry.operation.edits, ∀ kind,
    ledger.Recorded base edit.target kind → edit.change.kind.nodeKind = kind
  replays : ∀ arrival ∈ ledger.arrivals,
    ∃ reached, base.replay (arrival.before ++ [arrival.entry]) = .ok reached
  created : (Edit.allCreatedIds ledger.edits).Nodup
  new : ∀ id ∈ Edit.allCreatedIds ledger.edits, base.arena.isKnown id = false
  bounded : ∀ id node, base.arena.node? id = some node → node.data.extent ≤ limit
  createdBounded : ∀ edit ∈ ledger.edits, ∀ created ∈ edit.change.createdValues,
    created.Bounded limit
  small : limit + Edit.weights ledger.edits < 0xFFFFFFFFFFFFFFFF

theorem Extends.edits (extended : later.Extends ledger) : ledger.edits.Sublist later.edits :=
  (extended.submitted.append (extended.arrivals.map _)).flatMap _

theorem Extends.recorded (extended : later.Extends ledger) {id : NodeId} {kind : NodeKind}
    (recorded : ledger.Recorded base id kind) : later.Recorded base id kind := by
  refine recorded.imp_right ?_
  rintro ⟨edit, listed, found⟩
  exact ⟨edit, extended.edits.subset listed, found⟩

theorem created_hasKinds {edit : Edit} (listed : edit ∈ ledger.edits) {created : DataValue}
    (createdListed : created ∈ edit.change.createdValues) :
    created.HasKinds (ledger.Recorded base) :=
  fun _ _ inner occurs =>
    Or.inr ⟨edit, listed, created, createdListed, _, _, inner, occurs, rfl, rfl⟩

theorem Fair.arrival_regular {entry : LogEntry} (fair : (ledger.arrive entry).Fair base limit)
    {edit : Edit} (listed : edit ∈ entry.operation.edits) :
    edit.Regular limit ∧ ∀ created ∈ edit.change.createdValues,
      created.HasKinds ((ledger.arrive entry).Recorded base) := by
  have arrival := mem_arrive ledger entry
  have counted : edit ∈ (ledger.arrive entry).edits := by
    rw [edits_arrive]
    exact List.mem_append_right _ listed
  exact ⟨⟨fair.ordered _ arrival edit listed, fair.notNumeric _ arrival edit listed,
    fair.createdBounded edit counted⟩, fun created => created_hasKinds counted⟩

theorem Fair.of_extends (fair : later.Fair base limit) (extended : later.Extends ledger) :
    ledger.Fair base limit where
  plain := fun operation listed => fair.plain operation (extended.submitted.subset listed)
  ordered := fun arrival listed => fair.ordered arrival (extended.arrivals.subset listed)
  notNumeric := fun arrival listed => fair.notNumeric arrival (extended.arrivals.subset listed)
  kinds := fun arrival listed edit edited kind recorded =>
    fair.kinds arrival (extended.arrivals.subset listed) edit edited kind
      (extended.recorded recorded)
  replays := fun arrival listed => fair.replays arrival (extended.arrivals.subset listed)
  created := fair.created.sublist (extended.edits.flatMap _)
  new := fun id listed => fair.new id ((extended.edits.flatMap _).subset listed)
  bounded := fair.bounded
  createdBounded := fun edit listed => fair.createdBounded edit (extended.edits.subset listed)
  small := Nat.lt_of_le_of_lt
    (Nat.add_le_add_left (Edit.weights_sublist extended.edits) limit) fair.small

theorem Fair.enter (fair : ledger.Fair base limit) (entries : List LogEntry) :
    (ledger.enter entries).Fair base limit :=
  ⟨fair.plain, fair.ordered, fair.notNumeric, fair.kinds, fair.replays, fair.created, fair.new,
    fair.bounded, fair.createdBounded, fair.small⟩

/-- Neither the versions nor the sequence numbers run out. -/
structure HasRoom (initial : Word) (ledger : Ledger) : Prop where
  versions : initial.val + ledger.log.length < 0xFFFFFFFFFFFFFFFF
  seqNos : ledger.submitted.length < 0xFFFFFFFFFFFFFFFF

theorem HasRoom.of_extends {initial : Word} (room : later.HasRoom initial)
    (extended : later.Extends ledger) : ledger.HasRoom initial where
  versions := Nat.lt_of_le_of_lt (Nat.add_le_add_left extended.log.length_le _) room.versions
  seqNos := Nat.lt_of_le_of_lt extended.submitted.length_le room.seqNos

/-- The operations name no position in an array beyond the bound, and that is as far away from the last
word as they have edits to push it. -/
structure Confined (bound : Nat) (ledger : Ledger) : Prop where
  below : ∀ edit ∈ ledger.edits, edit.ReachesAtMost bound
  room : bound + ledger.edits.length ≤ 0xFFFFFFFFFFFFFFFF

theorem Confined.of_extends {bound : Nat} (confined : later.Confined bound)
    (extended : later.Extends ledger) : ledger.Confined bound where
  below := fun edit listed => confined.below edit (extended.edits.subset listed)
  room := Nat.le_trans (Nat.add_le_add_left extended.edits.length_le bound) confined.room

end Ledger

end SharedDocument
