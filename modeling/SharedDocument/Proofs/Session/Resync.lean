import SharedDocument.Proofs.Session.Steps

/-! Resynchronization. Replaying history leads to where a live replica gets that receives the same
operations one at a time, whether it learns of its own ones from the server's copies or from
acknowledgments. -/

namespace SharedDocument

namespace Replica

def performAll (replica : Replica) : List Call → Replica
  | [] => replica
  | call :: rest => (replica.perform call).1.performAll rest

/-- The calls by which a history can reach a live replica: each operation is received, but one of its own
that finds a queue may also be acknowledged. -/
inductive Delivers : Replica → List CommittedOperation → List Call → Prop
  | nil {live : Replica} : Delivers live [] []
  | receive {live : Replica} {committed : CommittedOperation} {history : List CommittedOperation}
      {calls : List Call} (rest : Delivers (live.perform (.receive committed)).1 history calls) :
      Delivers live (committed :: history) (.receive committed :: calls)
  | acknowledge {live : Replica} {committed : CommittedOperation} {history : List CommittedOperation}
      {calls : List Call} {head : QueuedOperation} {queue : List QueuedOperation}
      (own : committed.sessionId = live.config.sessionId) (queued : live.pending = head :: queue)
      (timestamp : Instant)
      (rest : Delivers
        (live.perform (.acknowledge ⟨head.seqNo, committed.version, timestamp⟩)).1 history calls) :
      Delivers live (committed :: history)
        (.acknowledge ⟨head.seqNo, committed.version, timestamp⟩ :: calls)

/-- A live replica in the place of another one: only the states differ, and what was not collected. -/
structure StandsFor (live replica : Replica) : Prop where
  config : live.config = replica.config
  document : live.document = replica.document
  pending : live.pending = replica.pending
  nextSeqNo : live.nextSeqNo = replica.nextSeqNo
  version : live.version = replica.version
  state : live.state = .ofQueue live.pending

/-- A replaying replica and a live one that has incorporated the same, and delivered the same changes on
top of earlier ones. -/
structure Shadows (earlier liveEarlier : List Delivery) (replaying live : Replica) : Prop where
  config : live.config = replaying.config
  document : live.document = replaying.document
  pending : live.pending = replaying.pending
  version : live.version = replaying.version
  deliveries : ∃ gained, replaying.deliveries = earlier ++ gained ∧
    live.deliveries = liveEarlier ++ gained
  replays : replaying.state = .resyncing
  isLive : live.state = .ofQueue live.pending

def Agrees (earlier liveEarlier : List Delivery) (outcome liveOutcome : Outcome Unit) : Prop :=
  (∃ fault liveFault, outcome.2 = .error fault ∧ liveOutcome.2 = .error liveFault) ∨
    (outcome.2 = .ok () ∧ liveOutcome.2 = .ok () ∧
      Shadows earlier liveEarlier outcome.1 liveOutcome.1)

def Follows (earlier liveEarlier : List Delivery) (outcome : Outcome Unit) (live : Replica)
    (calls : List Call) : Prop :=
  ((∃ fault, outcome.2 = .error fault) ∧ live.faults calls ≠ []) ∨
    (outcome.2 = .ok () ∧ live.faults calls = [] ∧
      Shadows earlier liveEarlier outcome.1 (live.performAll calls))

variable {earlier liveEarlier : List Delivery} {replaying live replica : Replica}

theorem Agrees.of_declines {outcome liveOutcome : Outcome Unit}
    (declines : replaying.Declines outcome) (liveDeclines : live.Declines liveOutcome) :
    Agrees earlier liveEarlier outcome liveOutcome := by
  obtain ⟨fault, refused⟩ := declines.answer
  obtain ⟨liveFault, liveRefused⟩ := liveDeclines.answer
  exact Or.inl ⟨fault, liveFault, refused, liveRefused⟩

namespace Shadows

theorem takeHead (shadows : Shadows earlier liveEarlier replaying live) (version : Word)
    {seqNo : Option Word}
    (named : ∀ head rest, replaying.pending = head :: rest → seqNo.getD head.seqNo = head.seqNo) :
    Agrees earlier liveEarlier (replaying.takeHead none version) (live.takeHead seqNo version) := by
  rcases replaying.takeHead_spec none version with
    declines | ⟨head, rest, next, queued, -, due, counted⟩
  · rcases live.takeHead_spec seqNo version with
      liveDeclines | ⟨head, rest, next, queued, -, due, counted⟩
    · exact .of_declines declines liveDeclines
    · rw [shadows.pending] at queued
      rw [shadows.version] at due counted
      exact absurd (by rw [takeHead_eq queued rfl due counted]) (declines.ne_ok ())
  · have liveQueued := shadows.pending.trans queued
    have waits : live.state = .pendingAck := by
      rw [shadows.isLive, liveQueued]
      rfl
    rw [takeHead_eq queued rfl due counted, takeHead_eq liveQueued (named head rest queued)
      (due.trans shadows.version.symm) (by rw [shadows.version, counted])]
    refine Or.inr ⟨rfl, rfl, ?_⟩
    -- the replaying side keeps its state, the live one leaves the waiting state with its last entry
    rw [settle_eq, if_neg (by simp [emit, shadows.replays]), settle_eq]
    cases rest with
    | nil =>
        rw [if_pos (by simp [emit, waits])]
        exact ⟨shadows.config, shadows.document, rfl, rfl, shadows.deliveries, shadows.replays, rfl⟩
    | cons second more =>
        rw [if_neg (by simp [emit])]
        exact ⟨shadows.config, shadows.document, rfl, rfl, shadows.deliveries, shadows.replays,
          waits⟩

theorem applyRebased (shadows : Shadows earlier liveEarlier replaying live)
    (committed : CommittedOperation) (remote : Operation) {pending : List QueuedOperation}
    (sameLength : pending.length = replaying.pending.length) :
    Agrees earlier liveEarlier (replaying.applyRebased committed remote pending)
      (live.applyRebased committed remote pending) := by
  unfold Replica.applyRebased
  simp only [shadows.document, shadows.version]
  cases (replaying.document.markSuperseded remote.supersededIds).apply
      (.peer committed.sessionId) remote with
  | error fault => exact Or.inl ⟨_, _, rfl, rfl⟩
  | ok result =>
      simp only []
      cases replaying.version.plus? 1 with
      | error fault => exact Or.inl ⟨_, _, rfl, rfl⟩
      | ok next =>
          obtain ⟨gained, before, liveBefore⟩ := shadows.deliveries
          refine Or.inr ⟨rfl, rfl, shadows.config, rfl, rfl, rfl, ⟨gained ++ result.2, ?_, ?_⟩,
            shadows.replays, ?_⟩
          · simp [emit, before]
          · simp [emit, liveBefore]
          · exact (shadows.isLive.trans (congrArg _ shadows.pending)).trans
              (SyncState.ofQueue_congr sameLength.symm)

theorem incorporate (shadows : Shadows earlier liveEarlier replaying live)
    (committed : CommittedOperation) :
    Agrees earlier liveEarlier (replaying.incorporate committed) (live.incorporate committed) := by
  unfold Replica.incorporate
  rw [shadows.config, shadows.document, shadows.pending, shadows.version]
  by_cases due : committed.version = replaying.version
  · rw [if_neg (not_not_intro due), if_neg (not_not_intro due)]
    by_cases own : committed.sessionId = replaying.config.sessionId
    · rw [if_pos own, if_pos own]
      exact shadows.takeHead committed.version fun _ _ _ => rfl
    · rw [if_neg own, if_neg own]
      cases rebased : rebase replaying.document.arena.isAncestor committed.operation
          replaying.pending with
      | error fault => cases fault <;> exact Or.inl ⟨_, _, rfl, rfl⟩
      | ok result =>
          apply shadows.applyRebased
          rw [← List.length_map QueuedOperation.seqNo, seqNos_rebase rebased, List.length_map]
  · rw [if_pos due, if_pos due]
    exact .of_declines (declines_diverge replaying _) (declines_diverge live _)

theorem receive (shadows : Shadows earlier liveEarlier replaying live)
    (committed : CommittedOperation) :
    Agrees earlier liveEarlier (replaying.incorporate committed) (live.receive committed) := by
  unfold Replica.receive
  rw [shadows.isLive, SyncState.isLive_ofQueue, if_pos rfl]
  exact shadows.incorporate committed

theorem acknowledge (shadows : Shadows earlier liveEarlier replaying live)
    {committed : CommittedOperation} {head : QueuedOperation} {queue : List QueuedOperation}
    (own : committed.sessionId = live.config.sessionId) (queued : live.pending = head :: queue)
    (timestamp : Instant) :
    Agrees earlier liveEarlier (replaying.incorporate committed)
      (live.acknowledge ⟨head.seqNo, committed.version, timestamp⟩) := by
  unfold Replica.acknowledge Replica.incorporate
  rw [shadows.isLive, SyncState.isLive_ofQueue, if_pos rfl, ← shadows.config, if_pos own]
  by_cases due : committed.version = replaying.version
  · rw [if_neg (not_not_intro due)]
    refine shadows.takeHead committed.version fun other rest same => ?_
    rw [← shadows.pending, queued] at same
    cases same
    rfl
  · rw [if_pos due]
    rcases live.takeHead_spec (some head.seqNo) committed.version with
      declines | ⟨_, _, _, _, _, liveDue, _⟩
    · exact .of_declines (declines_diverge replaying _) declines
    · exact absurd (liveDue.trans shadows.version) due

end Shadows

theorem failReplay_answer (replica : Replica) (fault : SessionError) :
    ∃ other, (replica.failReplay fault).2 = .error other := by
  unfold failReplay
  split <;> exact ⟨_, rfl⟩

theorem Agrees.follow {committed : CommittedOperation} {history : List CommittedOperation}
    {call : Call} {calls : List Call} {liveOutcome : Outcome Unit}
    (agrees : Agrees earlier liveEarlier (replaying.incorporate committed) liveOutcome)
    (performed : live.perform call = (liveOutcome.1, fault? liveOutcome))
    (rest : ∀ {reached : Replica}, Shadows earlier liveEarlier reached liveOutcome.1 →
      Follows earlier liveEarlier (reached.replay history) liveOutcome.1 calls) :
    Follows earlier liveEarlier (replaying.replay (committed :: history)) live (call :: calls) := by
  unfold Follows
  rw [replay, faults, performAll, performed]
  rcases agrees with ⟨fault, liveFault, refused, liveRefused⟩ | ⟨granted, liveGranted, shadows⟩
  · left
    have stopped : replaying.incorporate committed = (_, .error fault) := Prod.ext rfl refused
    rw [stopped]
    exact ⟨failReplay_answer _ fault, by simp [fault?, liveRefused]⟩
  · have went : replaying.incorporate committed = (_, .ok ()) := Prod.ext rfl granted
    rw [went]
    simp only [fault?, liveGranted, Option.toList_none, List.nil_append]
    exact rest shadows

/-- A whole history, in any of the forms in which it can be delivered. -/
theorem Shadows.replay {history : List CommittedOperation} {calls : List Call}
    (shadows : Shadows earlier liveEarlier replaying live) (delivers : live.Delivers history calls) :
    Follows earlier liveEarlier (replaying.replay history) live calls := by
  induction delivers generalizing replaying with
  | nil => exact Or.inr ⟨rfl, rfl, shadows⟩
  | receive rest ih => exact (shadows.receive _).follow rfl ih
  | acknowledge own queued timestamp rest ih =>
      exact (shadows.acknowledge own queued timestamp).follow rfl ih

theorem incorporate_counts {committed : CommittedOperation}
    (granted : (replica.incorporate committed).2 = .ok ()) :
    (replica.incorporate committed).1.version.val = replica.version.val + 1 ∧
      (replica.incorporate committed).1.resyncTarget = replica.resyncTarget := by
  rcases replica.incorporate_spec committed with
    declines | ⟨_, _, same⟩ | ⟨_, _, remote, pending, _, same⟩
  · exact absurd granted (declines.ne_ok ())
  · rw [same] at granted ⊢
    rcases replica.takeHead_spec none committed.version with
      declines | ⟨head, rest, next, queued, named, due, counted⟩
    · exact absurd granted (declines.ne_ok ())
    · rw [takeHead_eq queued named due counted, settle_eq]
      have advanced := (Word.plus?_eq_ok_iff _ _ _).mp counted
      split <;> exact ⟨advanced, rfl⟩
  · rw [same] at granted ⊢
    obtain ⟨document, deliveries, declines | ⟨next, counted, reached⟩⟩ :=
      replica.applyRebased_spec committed remote pending
    · exact absurd granted (declines.ne_ok ())
    · rw [reached]
      exact ⟨(Word.plus?_eq_ok_iff _ _ _).mp counted, rfl⟩

theorem replay_counts {history : List CommittedOperation}
    (granted : (replica.replay history).2 = .ok ()) :
    (replica.replay history).1.version.val = replica.version.val + history.length ∧
      (replica.replay history).1.resyncTarget = replica.resyncTarget := by
  induction history generalizing replica with
  | nil => exact ⟨rfl, rfl⟩
  | cons committed rest ih =>
      rw [replay] at granted ⊢
      split at granted
      · rename_i reached went
        have counts := @incorporate_counts replica committed (by rw [went])
        simp only [went] at counts
        obtain ⟨version, target⟩ := ih granted
        rw [List.length_cons]
        exact ⟨by omega, target.trans counts.2⟩
      · rename_i reached fault stopped
        obtain ⟨other, refused⟩ := failReplay_answer reached fault
        rw [refused] at granted
        cases granted

theorem beginResync_eq {target : Word} {behind : Nat} (recoverable : replica.state ≠ .unrecoverable)
    (upTo : target.val = replica.version.val + behind)
    (allowed : behind ≤ replica.config.maxResyncGap.val) :
    replica.beginResync target =
      ({ replica with resyncTarget := target }.transition .resyncing,
        .ok (HistoryRequest.between replica.version target)) := by
  unfold beginResync
  rw [if_neg recoverable, if_neg (by omega)]
  exact if_neg (by omega)

theorem completeResync_answer {history : List CommittedOperation} {fault : SessionError}
    (resyncing : replica.state = .resyncing) (refused : (replica.replay history).2 = .error fault) :
    (replica.completeResync (.ok history)).2 = .error fault := by
  unfold completeResync
  rw [if_neg (not_not_intro resyncing)]
  have stopped : replica.replay history = (_, .error fault) := Prod.ext rfl refused
  simp only []
  rw [stopped]

theorem completeResync_eq {history : List CommittedOperation}
    (resyncing : replica.state = .resyncing) (granted : (replica.replay history).2 = .ok ()) :
    replica.completeResync (.ok history) = (replica.replay history).1.finishResync := by
  unfold completeResync
  rw [if_neg (not_not_intro resyncing)]
  have went : replica.replay history = (_, .ok ()) := Prod.ext rfl granted
  simp only []
  rw [went]

theorem completeResync_granted {history : Except HistoryError (List CommittedOperation)}
    {queue : List QueuedOperation} (granted : (replica.completeResync history).2 = .ok queue) :
    ∃ events, history = .ok events ∧ replica.state = .resyncing ∧
      (replica.replay events).2 = .ok () ∧
      (replica.replay events).1.version = (replica.replay events).1.resyncTarget := by
  unfold completeResync at granted
  split at granted
  · cases granted
  · rename_i resyncing
    split at granted
    · cases granted
    · cases granted
    · rename_i events
      split at granted
      · cases granted
      · rename_i reached went
        refine ⟨events, rfl, not_not.mp resyncing, by rw [went], ?_⟩
        rw [went]
        by_contra early
        unfold finishResync at granted
        rw [if_pos early] at granted
        cases granted

theorem isLive_completeResync {history : Except HistoryError (List CommittedOperation)}
    {queue : List QueuedOperation} (granted : (replica.completeResync history).2 = .ok queue) :
    (replica.completeResync history).1.state.isLive = true := by
  obtain ⟨events, rfl, resyncing, replayed, caughtUp⟩ := completeResync_granted granted
  rw [completeResync_eq resyncing replayed, finishResync_eq caughtUp, transition_eq]
  exact SyncState.isLive_ofQueue _

theorem queue_completeResync {history : Except HistoryError (List CommittedOperation)}
    {queue : List QueuedOperation} (granted : (replica.completeResync history).2 = .ok queue) :
    (replica.completeResync history).1.pending = queue ∧
      ∀ entry ∈ queue, entry.contextVersion = (replica.completeResync history).1.version := by
  obtain ⟨events, rfl, resyncing, replayed, caughtUp⟩ := completeResync_granted granted
  rw [completeResync_eq resyncing replayed, finishResync_eq caughtUp, transition_eq] at granted ⊢
  cases granted
  exact ⟨rfl, by simp [restamp, emit]⟩

/-- A resync up to a version and the delivery of the same operations to a live replica succeed together.
Then they lead to the same document, version, state and queue, and change the document in the same
steps. -/
theorem resync_eq_delivery {target : Word} {history : List CommittedOperation} {calls : List Call}
    (recoverable : replica.state ≠ .unrecoverable)
    (upTo : target.val = replica.version.val + history.length)
    (allowed : history.length ≤ replica.config.maxResyncGap.val)
    (standsFor : live.StandsFor replica) (delivers : live.Delivers history calls) :
    let resync := [Call.beginResync target, .completeResync (.ok history)]
    let reached := replica.performAll resync
    let liveReached := live.performAll calls
    (replica.faults resync = [] ↔ live.faults calls = []) ∧
      (replica.faults resync = [] →
        reached.document = liveReached.document ∧
        (∃ gained, reached.deliveries = replica.deliveries ++ gained ∧
          liveReached.deliveries = live.deliveries ++ gained) ∧
        reached.version = liveReached.version ∧
        reached.state = liveReached.state ∧
        reached.pending.map QueuedOperation.seqNo =
          liveReached.pending.map QueuedOperation.seqNo ∧
        reached.pending.map QueuedOperation.operation =
          liveReached.pending.map QueuedOperation.operation) := by
  have began := beginResync_eq recoverable upTo allowed
  have begun := transition_eq { replica with resyncTarget := target } .resyncing
  have shadows : Shadows replica.deliveries live.deliveries
      ({ replica with resyncTarget := target }.transition .resyncing) live := by
    rw [begun]
    exact ⟨standsFor.config, standsFor.document, standsFor.pending, standsFor.version,
      ⟨[], (List.append_nil _).symm, (List.append_nil _).symm⟩, rfl, standsFor.state⟩
  simp only [faults, performAll, perform, began, fault?, Option.toList_none, List.nil_append,
    List.append_nil]
  rcases shadows.replay delivers with
    ⟨⟨fault, refused⟩, liveRefused⟩ | ⟨granted, liveGranted, last⟩
  · rw [completeResync_answer shadows.replays refused]
    simp [liveRefused]
  · obtain ⟨counted, sameTarget⟩ := replay_counts granted
    have caughtUp : (({ replica with resyncTarget := target }.transition .resyncing).replay
        history).1.version = (({ replica with resyncTarget := target }.transition
          .resyncing).replay history).1.resyncTarget := by
      apply Word.ext_val
      rw [counted, sameTarget, begun]
      exact upTo.symm
    rw [completeResync_eq shadows.replays granted, finishResync_eq caughtUp, transition_eq]
    refine ⟨by simp [liveGranted], fun _ => ⟨last.document.symm, last.deliveries, last.version.symm,
      ?_, ?_, ?_⟩⟩
    · rw [last.isLive, last.pending]
      rfl
    · rw [last.pending]
      exact seqNos_restamp _ _
    · rw [last.pending]
      exact operations_restamp _ _

/-- One operation is queued. The history has one of another session, which meets the queue, and then the
own one, which the live side learns of by an acknowledgment. -/
theorem resync_eq_delivery_disconnected :
    ∃ replica live : Replica, live.StandsFor replica ∧ replica.state = .disconnected ∧
      live.state = .pendingAck ∧
      let own : Operation := .single (.on ⟨"list"⟩ (.array (.insert .zero (.null ⟨"own"⟩))))
      let other : Operation := .single (.on ⟨"list"⟩ (.array (.insert .zero (.null ⟨"other"⟩))))
      let reached := replica.performAll [.beginResync ⟨2, by decide⟩, .completeResync
        (.ok [⟨"server", .zero, default, other⟩, ⟨"client", ⟨1, by decide⟩, default, own⟩])]
      let liveReached := live.performAll [.receive ⟨"server", .zero, default, other⟩,
        .acknowledge ⟨.zero, ⟨1, by decide⟩, default⟩]
      reached.document = liveReached.document ∧ reached.version = liveReached.version ∧
        reached.state = liveReached.state := by
  let own : Operation := .single (.on ⟨"list"⟩ (.array (.insert .zero (.null ⟨"own"⟩))))
  let other : Operation := .single (.on ⟨"list"⟩ (.array (.insert .zero (.null ⟨"other"⟩))))
  let history : List CommittedOperation :=
    [⟨"server", .zero, default, other⟩, ⟨"client", ⟨1, by decide⟩, default, own⟩]
  let live := ((start (.named "client")
    ⟨⟨"list"⟩, Arena.empty.attach none (.array ⟨"list"⟩ []), .none, true, false⟩ .zero).perform
      (.submit default own)).1
  have standsFor : live.StandsFor live.transportFailed := ⟨rfl, rfl, rfl, rfl, rfl, rfl⟩
  have delivers : live.Delivers history [.receive ⟨"server", .zero, default, other⟩,
      .acknowledge ⟨.zero, ⟨1, by decide⟩, default⟩] :=
    .receive (@Delivers.acknowledge _ _ _ _ ⟨"client", .zero, .zero, default,
      .single (.on ⟨"list"⟩ (.array (.insert ⟨1, by decide⟩ (.null ⟨"own"⟩))))⟩ [] rfl rfl default
      .nil)
  have offline : live.transportFailed.state = .disconnected := rfl
  have recoverable : live.transportFailed.state ≠ .unrecoverable := by
    rw [offline]
    decide
  have limit : live.transportFailed.config.maxResyncGap.val = 10000 := rfl
  have allowed : history.length ≤ live.transportFailed.config.maxResyncGap.val := by
    rw [limit]
    exact Nat.le_of_ble_eq_true rfl
  have spec := @resync_eq_delivery live live.transportFailed ⟨2, by decide⟩ history _
    recoverable rfl allowed standsFor delivers
  have granted : live.faults [.receive ⟨"server", .zero, default, other⟩,
      .acknowledge ⟨.zero, ⟨1, by decide⟩, default⟩] = [] := by
    subst live own other
    decide +kernel
  have same := spec.2 (spec.1.mpr granted)
  exact ⟨_, live, standsFor, offline, rfl, same.1, same.2.2.1, same.2.2.2.1⟩

end Replica

end SharedDocument
