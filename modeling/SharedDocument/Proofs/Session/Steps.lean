import SharedDocument.Proofs.Session.Calls

/-! What the steps of a session come to, each said once and in full: what a step that is declined may
have touched, and what an accepted one makes of the queue, the numbers, the state and the outbox. -/

namespace SharedDocument

def SyncState.ofQueue (pending : List QueuedOperation) : SyncState :=
  if pending.isEmpty then .synchronized else .pendingAck

theorem SyncState.isLive_ofQueue (pending : List QueuedOperation) :
    (SyncState.ofQueue pending).isLive = true := by
  unfold SyncState.ofQueue
  split <;> rfl

theorem SyncState.ofQueue_congr {pending other : List QueuedOperation}
    (sameLength : pending.length = other.length) :
    SyncState.ofQueue pending = .ofQueue other := by
  cases pending <;> cases other <;> simp_all [SyncState.ofQueue]

def restamp (version : Word) (queue : List QueuedOperation) : List QueuedOperation :=
  queue.map fun entry => { entry with contextVersion := version }

@[simp] theorem seqNos_restamp (version : Word) (queue : List QueuedOperation) :
    (restamp version queue).map QueuedOperation.seqNo = queue.map QueuedOperation.seqNo := by
  simp [restamp]

@[simp] theorem operations_restamp (version : Word) (queue : List QueuedOperation) :
    (restamp version queue).map QueuedOperation.operation =
      queue.map QueuedOperation.operation := by
  simp [restamp]

@[simp] theorem length_restamp (version : Word) (queue : List QueuedOperation) :
    (restamp version queue).length = queue.length :=
  List.length_map _

namespace Replica

variable {replica : Replica}

theorem transition_eq (replica : Replica) (next : SyncState) :
    replica.transition next =
      { replica with
        state := next
        outbox := replica.outbox ++
          if replica.state = next then [] else [.stateChanged replica.state next] } := by
  unfold transition
  by_cases same : replica.state = next
  · rw [if_pos same, if_pos same, List.append_nil, ← same]
  · rw [if_neg same, if_neg same]
    rfl

def settle (replica : Replica) : Replica :=
  if replica.pending.isEmpty && replica.state = .pendingAck then replica.transition .synchronized
  else replica

theorem settle_eq (replica : Replica) :
    replica.settle =
      if replica.pending.isEmpty && replica.state = .pendingAck then
        { replica with
          state := .synchronized
          outbox := replica.outbox ++ [.stateChanged .pendingAck .synchronized] }
      else replica := by
  unfold settle
  split
  · rename_i waiting
    simp only [Bool.and_eq_true, decide_eq_true_eq] at waiting
    rw [transition_eq, waiting.2, if_neg (by decide)]
  · rfl

def Declines {α : Type} (replica : Replica) (outcome : Outcome α) : Prop :=
  ∃ fault, outcome = (replica, .error fault) ∨ outcome = replica.diverge fault ∨
    outcome = replica.fail fault

theorem declines_diverge {α : Type} (replica : Replica) (fault : SessionError) :
    replica.Declines (replica.diverge fault : Outcome α) :=
  ⟨fault, Or.inr (Or.inl rfl)⟩

theorem Declines.answer {α : Type} {outcome : Outcome α} (declines : replica.Declines outcome) :
    ∃ fault, outcome.2 = .error fault := by
  obtain ⟨fault, rfl | rfl | rfl⟩ := declines
  · exact ⟨fault, rfl⟩
  · refine ⟨fault, ?_⟩
    unfold diverge
    split <;> rfl
  · exact ⟨fault, rfl⟩

theorem Declines.ne_ok {α : Type} {outcome : Outcome α} (declines : replica.Declines outcome)
    (answer : α) : outcome.2 ≠ .ok answer := by
  obtain ⟨fault, refused⟩ := declines.answer
  rw [refused]
  exact nofun

/-- A refused submission may have touched the document, where the sequence number cannot be counted up;
a granted one is queued under that number. -/
theorem submit_spec (replica : Replica) (now : Instant) (operation : Operation) :
    ∃ document deliveries,
      let edited := { replica with document := document, deliveries := deliveries }
      (∃ fault, replica.submit now operation = (edited, .error fault)) ∨
        ∃ next queued, replica.queueIsFull = false ∧ replica.nextSeqNo.plus? 1 = .ok next ∧
          queued.seqNo = replica.nextSeqNo ∧
          let enqueued := { edited with nextSeqNo := next, pending := replica.pending ++ [queued] }
          replica.submit now operation =
            (if replica.state = .synchronized then enqueued.transition .pendingAck else enqueued,
              .ok queued) := by
  unfold submit
  by_cases lost : replica.state = .unrecoverable
  · rw [if_pos lost]
    exact ⟨_, _, Or.inl ⟨_, rfl⟩⟩
  · rw [if_neg lost]
    cases full : replica.queueIsFull with
    | true => exact ⟨_, _, Or.inl ⟨_, rfl⟩⟩
    | false =>
        cases applied : replica.document.apply .own operation with
        | error fault => exact ⟨_, _, Or.inl ⟨_, rfl⟩⟩
        | ok result =>
            refine ⟨result.1, replica.deliveries ++ result.2, ?_⟩
            cases counted : replica.nextSeqNo.plus? 1 with
            | error fault => exact Or.inl ⟨_, rfl⟩
            | ok next =>
                refine Or.inr ⟨next, ⟨replica.config.sessionId, replica.nextSeqNo, replica.version, now,
                  operation⟩, rfl, rfl, rfl, ?_⟩
                exact (apply_ite (fun reached => (reached, Except.ok _)) _ _ _).symm

theorem takeHead_eq {seqNo : Option Word} {version next : Word} {head : QueuedOperation}
    {rest : List QueuedOperation} (queued : replica.pending = head :: rest)
    (named : seqNo.getD head.seqNo = head.seqNo) (due : version = replica.version)
    (counted : replica.version.plus? 1 = .ok next) :
    replica.takeHead seqNo version =
      (({ replica with pending := rest, version := next }.emit
        (.acknowledged head.seqNo version)).settle, .ok ()) := by
  unfold takeHead settle
  rw [queued]
  simp only [named, due, ne_eq, not_true_eq_false, if_false, counted]
  exact (apply_ite (fun reached => (reached, Except.ok ())) _ _ _).symm

theorem takeHead_spec (replica : Replica) (seqNo : Option Word) (version : Word) :
    replica.Declines (replica.takeHead seqNo version) ∨
      ∃ head rest next, replica.pending = head :: rest ∧ seqNo.getD head.seqNo = head.seqNo ∧
        version = replica.version ∧ replica.version.plus? 1 = .ok next := by
  cases queued : replica.pending with
  | nil =>
      left
      unfold takeHead
      rw [queued]
      exact declines_diverge replica _
  | cons head rest =>
      by_cases named : seqNo.getD head.seqNo = head.seqNo
      · by_cases due : version = replica.version
        · cases counted : replica.version.plus? 1 with
          | error fault =>
              left
              unfold takeHead
              rw [queued]
              simp only [named, due, ne_eq, not_true_eq_false, if_false, counted]
              exact ⟨_, Or.inl rfl⟩
          | ok next => exact Or.inr ⟨head, rest, next, rfl, named, due, rfl⟩
        · left
          unfold takeHead
          rw [queued]
          simp only [named, ne_eq, not_true_eq_false, if_false, due, not_false_eq_true, if_true]
          exact declines_diverge replica _
      · left
        unfold takeHead
        rw [queued]
        simp only [ne_eq, named, not_false_eq_true, if_true]
        exact declines_diverge replica _

theorem applyRebased_spec (replica : Replica) (committed : CommittedOperation) (remote : Operation)
    (pending : List QueuedOperation) :
    ∃ document deliveries,
      let rebased :=
        { replica with pending := pending, document := document, deliveries := deliveries }
      rebased.Declines (replica.applyRebased committed remote pending) ∨
        ∃ next, replica.version.plus? 1 = .ok next ∧
          replica.applyRebased committed remote pending =
            ({ rebased with version := next }.emit
              (.remoteApplied committed.sessionId committed.version), .ok ()) := by
  unfold applyRebased
  cases applied : (replica.document.markSuperseded remote.supersededIds).apply
      (.peer committed.sessionId) remote with
  | error fault =>
      simp only [applied]
      exact ⟨_, _, Or.inl ⟨_, Or.inr (Or.inr rfl)⟩⟩
  | ok result =>
      simp only [applied]
      refine ⟨result.1, replica.deliveries ++ result.2, ?_⟩
      cases replica.version.plus? 1 with
      | error fault => exact Or.inl ⟨_, Or.inl rfl⟩
      | ok next => exact Or.inr ⟨next, rfl, rfl⟩

theorem incorporate_spec (replica : Replica) (committed : CommittedOperation) :
    replica.Declines (replica.incorporate committed) ∨
      (committed.sessionId = replica.config.sessionId ∧ committed.version = replica.version ∧
        replica.incorporate committed = replica.takeHead none committed.version) ∨
      (committed.sessionId ≠ replica.config.sessionId ∧ committed.version = replica.version ∧
        ∃ remote pending, rebase replica.document.arena.isAncestor committed.operation
            replica.pending = .ok (remote, pending) ∧
          replica.incorporate committed = replica.applyRebased committed remote pending) := by
  unfold incorporate
  by_cases due : committed.version = replica.version
  · rw [if_neg (not_not_intro due)]
    by_cases own : committed.sessionId = replica.config.sessionId
    · rw [if_pos own]
      exact Or.inr (Or.inl ⟨own, due, rfl⟩)
    · rw [if_neg own]
      cases rebased : rebase replica.document.arena.isAncestor committed.operation
          replica.pending with
      | error fault =>
          left
          cases fault with
          | overflow overflow => exact ⟨_, Or.inl rfl⟩
          | _ => exact ⟨_, Or.inr (Or.inr rfl)⟩
      | ok result => exact Or.inr (Or.inr ⟨own, due, result.1, result.2, rfl, rfl⟩)
  · rw [if_pos due]
    exact Or.inl (declines_diverge replica _)

theorem finishResync_eq (caughtUp : replica.version = replica.resyncTarget) :
    replica.finishResync =
      (({ replica with pending := restamp replica.version replica.pending }.transition
        (.ofQueue replica.pending)).emit (.resynced replica.version),
        .ok (restamp replica.version replica.pending)) := by
  have same := SyncState.ofQueue_congr (length_restamp replica.version replica.pending)
  unfold finishResync
  rw [if_neg (not_not_intro caughtUp), ← same]
  simp only [transition_eq]
  rfl

end Replica

end SharedDocument
