import SharedDocument.Proofs.Transform.Reach
import SharedDocument.Proofs.Transform.Standing
import SharedDocument.Session.Replica

/-! Queues under remote operations. A remote operation meets the queue entry by entry, and each entry
as a whole; what holds of two operations holds of an operation and the queue. -/

namespace SharedDocument

open Edit (Concurrent Descends Kindred Runs Spread effects transformAll)

theorem Operation.transform_eq_ok {ancestry : Ancestry} {server client : Operation}
    {pair : Transformed Operation} (transformed : server.transform ancestry client = .ok pair) :
    transformAll ancestry server.edits client.edits = .ok (pair.server.edits, pair.client.edits) := by
  rw [← edits_transform, transformed]
  rfl

theorem Operation.transform_eq_error {ancestry : Ancestry} {server client : Operation}
    {fault : TransformError} (fails : server.transform ancestry client = .error fault) :
    transformAll ancestry server.edits client.edits = .error fault := by
  rw [← edits_transform, fails]
  rfl

theorem Operation.transform_inRange {ancestry : Ancestry} {server client : Operation} {bound : Nat}
    (serverSpread : Spread bound server.edits) (clientSpread : Spread bound client.edits)
    (room : bound + server.edits.length + client.edits.length ≤ 0xFFFFFFFFFFFFFFFF) :
    InRange (fun pair => Spread (bound + client.edits.length) pair.server.edits ∧
      Spread (bound + server.edits.length) pair.client.edits) (server.transform ancestry client) := by
  have met : InRange _ (transformAll ancestry server.edits client.edits) :=
    Edit.transformAll_inRange serverSpread clientSpread room
  rw [← edits_transform] at met
  exact (InRange.map_iff _).mp met

def queuedEdits (queue : List QueuedOperation) : List Edit :=
  queue.flatMap fun entry => entry.operation.edits

@[simp] theorem queuedEdits_nil : queuedEdits [] = [] := rfl

@[simp] theorem queuedEdits_cons (entry : QueuedOperation) (rest : List QueuedOperation) :
    queuedEdits (entry :: rest) = entry.operation.edits ++ queuedEdits rest := rfl

@[simp] theorem queuedEdits_append (before after : List QueuedOperation) :
    queuedEdits (before ++ after) = queuedEdits before ++ queuedEdits after :=
  List.flatMap_append

theorem queuedEdits_rebased (queue : List QueuedOperation) (version : Word) :
    queuedEdits (queue.map fun entry => { entry with contextVersion := version }) =
      queuedEdits queue :=
  List.flatMap_map _ _ queue

namespace Replica

variable {ancestry : Ancestry} {blocked : NodeId → Prop} {value : DataValue} {limit : Nat}
  {remote : Operation} {queue : List QueuedOperation}

theorem rebase_cons_eq_ok {entry : QueuedOperation} {rest : List QueuedOperation}
    {result : Operation × List QueuedOperation}
    (succeeds : rebase ancestry remote (entry :: rest) = .ok result) :
    ∃ pair further, remote.transform ancestry entry.operation = .ok pair ∧
      rebase ancestry pair.server rest = .ok further ∧
      result = (further.1, { entry with operation := pair.client } :: further.2) := by
  rw [rebase] at succeeds
  split at succeeds
  · cases succeeds
  · rename_i pair transformed
    obtain ⟨further, rebased, rfl⟩ := Fallible.map_eq_ok_iff.mp succeeds
    exact ⟨pair, further, transformed, rebased, rfl⟩

/-- The entries keep their places and their numbers. -/
theorem seqNos_rebase {result : Operation × List QueuedOperation}
    (succeeds : rebase ancestry remote queue = .ok result) :
    result.2.map QueuedOperation.seqNo = queue.map QueuedOperation.seqNo := by
  induction queue generalizing remote result with
  | nil =>
      cases succeeds
      rfl
  | cons entry rest ih =>
      obtain ⟨pair, further, -, rebased, rfl⟩ := rebase_cons_eq_ok succeeds
      rw [List.map_cons, List.map_cons, ih rebased]

theorem rebase_descends {result : Operation × List QueuedOperation}
    (succeeds : rebase ancestry remote queue = .ok result) :
    List.Forall₂ Descends remote.edits result.1.edits ∧
      List.Forall₂ Descends (queuedEdits queue) (queuedEdits result.2) := by
  induction queue generalizing remote result with
  | nil =>
      cases succeeds
      exact ⟨List.forall₂_same.mpr fun edit _ => .refl edit, .nil⟩
  | cons entry rest ih =>
      obtain ⟨pair, further, transformed, rebased, rfl⟩ := rebase_cons_eq_ok succeeds
      obtain ⟨remoteDescend, entryDescend⟩ :=
        Edit.transformAll_descends (Operation.transform_eq_ok transformed)
      obtain ⟨lastDescend, restDescend⟩ := ih rebased
      exact ⟨Edit.forall₂_trans remoteDescend lastDescend Edit.Descends.trans,
        List.rel_append entryDescend restDescend⟩

/-- The queue is pushed by every edit of the remote operation. -/
theorem rebase_inRange {bound : Nat} (remoteSpread : Spread bound remote.edits)
    (queueSpread : Spread bound (queuedEdits queue))
    (room : bound + remote.edits.length + (queuedEdits queue).length ≤ 0xFFFFFFFFFFFFFFFF) :
    InRange (fun result => Spread (bound + remote.edits.length) (queuedEdits result.2))
      (rebase ancestry remote queue) := by
  induction queue generalizing bound remote with
  | nil => exact trivial
  | cons entry rest ih =>
      obtain ⟨entrySpread, restSpread⟩ := Edit.spread_append.mp queueSpread
      rw [queuedEdits_cons, List.length_append] at room
      have met : InRange _ (remote.transform ancestry entry.operation) :=
        Operation.transform_inRange remoteSpread entrySpread (by omega)
      rw [rebase]
      cases transformed : remote.transform ancestry entry.operation with
      | error fault =>
          rw [transformed] at met
          exact met
      | ok pair =>
          rw [transformed] at met
          obtain ⟨remoteNext, entryNext⟩ := met
          have descend := Edit.transformAll_descends (Operation.transform_eq_ok transformed)
          have remoteLength : remote.edits.length = pair.server.edits.length := descend.1.length_eq
          have entryLength : entry.operation.edits.length = pair.client.edits.length :=
            descend.2.length_eq
          have further : InRange _ (rebase ancestry pair.server rest) :=
            ih remoteNext restSpread (by omega)
          refine (InRange.map_iff _).mpr (further.mono fun result restNext => ?_)
          refine Edit.spread_append.mpr ⟨entryNext, ?_⟩
          rw [remoteLength, ← entryLength, Nat.add_right_comm]
          exact restNext

/-- What is left of the remote operation can be run after the queue, the queue as it has become can be
run after the remote operation, and both ways lead to one value. -/
theorem rebase_settles {result : Operation × List QueuedOperation}
    (concurrent : Concurrent ancestry blocked limit value remote.edits (queuedEdits queue))
    (succeeds : rebase ancestry remote queue = .ok result) :
    Runs blocked (effects value (queuedEdits queue)) result.1.edits ∧
      Runs blocked (effects value remote.edits) (queuedEdits result.2) ∧
      effects (effects value remote.edits) (queuedEdits result.2) =
        effects (effects value (queuedEdits queue)) result.1.edits := by
  induction queue generalizing value limit remote result with
  | nil =>
      cases succeeds
      exact ⟨concurrent.serverRuns, trivial, rfl⟩
  | cons entry rest ih =>
      obtain ⟨pair, further, transformed, rebased, rfl⟩ := rebase_cons_eq_ok succeeds
      have edits := Operation.transform_eq_ok transformed
      rw [queuedEdits_cons] at concurrent
      have front : Concurrent ancestry blocked limit value remote.edits entry.operation.edits :=
        Concurrent.swap ⟨concurrent.swap.fewer, concurrent.serverRuns⟩
      obtain ⟨remoteRuns, entryRuns, same⟩ := Edit.transformAll_settles front edits
      have next : Concurrent ancestry blocked _ (effects value entry.operation.edits)
          pair.server.edits (queuedEdits rest) :=
        Concurrent.swap
          ⟨concurrent.swap.advanceAll.descend (Edit.transformAll_descends edits).1, remoteRuns⟩
      obtain ⟨lastRuns, restRuns, lastSame⟩ := ih next rebased
      rw [queuedEdits_cons, queuedEdits_cons, Edit.effects_append, Edit.effects_append,
        Edit.runs_append, same]
      exact ⟨lastRuns, ⟨entryRuns, restRuns⟩, lastSame⟩

theorem overflow_of_rebase_error
    (kindred : ∀ edit ∈ remote.edits, ∀ other ∈ queuedEdits queue, Kindred edit other)
    {fault : TransformError} (fails : rebase ancestry remote queue = .error fault) :
    ∃ overflow, fault = .overflow overflow := by
  induction queue generalizing remote with
  | nil => cases fails
  | cons entry rest ih =>
      rw [rebase] at fails
      split at fails
      · rename_i transformFails
        cases fails
        exact Edit.overflow_of_transformAll_error
          (fun edit listed other otherListed =>
            kindred edit listed other (List.mem_append_left _ otherListed))
          (Operation.transform_eq_error transformFails)
      · rename_i pair transformed
        refine ih ?_ (Fallible.map_eq_error_iff.mp fails)
        intro edit listed other otherListed
        obtain ⟨older, olderListed, descends⟩ := Edit.exists_ancestor
          (Edit.transformAll_descends (Operation.transform_eq_ok transformed)).1 listed
        exact (kindred older olderListed other (List.mem_append_right _ otherListed)).descends
          descends (.refl other)

end Replica

end SharedDocument
