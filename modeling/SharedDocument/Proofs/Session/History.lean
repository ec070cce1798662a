import SharedDocument.Proofs.Session.Faults

/-! Histories. A resync asks for the versions that the server is ahead, and it accepts a history of these
versions in their order and no other one. The own operations in a history stand for the head of the
queue, one after another. -/

namespace SharedDocument

def versionsBetween (start finish : Word) : List Nat :=
  List.range' start.val (finish.val - start.val)

def ownIn (sessionId : String) (history : List CommittedOperation) : List CommittedOperation :=
  history.filter fun committed => committed.sessionId = sessionId

theorem ownIn_append (sessionId : String) (history later : List CommittedOperation) :
    ownIn sessionId (history ++ later) = ownIn sessionId history ++ ownIn sessionId later :=
  List.filter_append _ _

def SessionEvent.acknowledgment? : SessionEvent → Option (Word × Word)
  | .acknowledged seqNo version => some (seqNo, version)
  | _ => none

theorem SessionEvent.acknowledgment?_eq_none {event : SessionEvent}
    (quiet : event.incorporatedVersion? = none) : event.acknowledgment? = none := by
  cases event <;> first | rfl | cases quiet

theorem zip_append_of_le {α β : Type} {row : List α} {first later : List β}
    (enough : first.length ≤ row.length) :
    row.zip (first ++ later) = row.zip first ++ (row.drop first.length).zip later := by
  induction first generalizing row with
  | nil => simp
  | cons entry rest ih =>
      cases row with
      | nil => simp at enough
      | cons head tail =>
          rw [List.length_cons, List.length_cons, Nat.add_le_add_iff_right] at enough
          simp [ih enough]

namespace HistoryRequest

def AsksFor (versions : List Nat) : Option HistoryRequest → Prop
  | none => versions = []
  | some request =>
      versions ≠ [] ∧ (∀ version, request.covers version = true ↔ version.val ∈ versions) ∧
        ∃ count, request.count = .ok count ∧ count.val = versions.length

theorem between_asksFor (start finish : Word) :
    AsksFor (versionsBetween start finish) (between start finish) := by
  have bound := finish.isLt
  unfold between versionsBetween
  split
  · rename_i ahead
    refine ⟨?_, fun version => ?_, ⟨finish.val - start.val, by omega⟩, ?_, ?_⟩
    · rw [ne_eq, List.range'_eq_nil_iff]
      omega
    · rw [List.mem_range'_1]
      change (start.val ≤ version.val && version.val ≤ finish.val - 1) = true ↔ _
      rw [Bool.and_eq_true_iff, decide_eq_true_eq, decide_eq_true_eq]
      omega
    · refine Fallible.bind_eq_ok_iff.mpr ⟨(finish.minus 1).minus start.val,
        (Word.minus?_eq_ok_iff _ _ _).mpr ⟨?_, rfl⟩, (Word.plus?_eq_ok_iff _ _ _).mpr ?_⟩
      · change start.val ≤ finish.val - 1
        omega
      · change finish.val - start.val = finish.val - 1 - start.val + 1
        omega
    · exact List.length_range'.symm
  · exact List.range'_eq_nil_iff.mpr (by omega)

end HistoryRequest

/-- While a resync waits for its history, everything may happen except that another one begins or that
a history arrives. -/
def Activity.Waits : Activity → Prop
  | .call (.beginResync _) => False
  | .call (.completeResync (.ok _)) => False
  | _ => True

namespace Replica

variable {replica reached last : Replica} {history later : List CommittedOperation}
  {committed : CommittedOperation}

/-! What a history is accepted for. -/

structure Accepts (replica : Replica) (history : List CommittedOperation) (reached : Replica) :
    Prop where
  config : reached.config = replica.config
  resyncTarget : reached.resyncTarget = replica.resyncTarget
  version : reached.version.val = replica.version.val + history.length
  versions : history.map (fun committed => committed.version.val) =
    List.range' replica.version.val history.length
  enough : (ownIn replica.config.sessionId history).length ≤ replica.pending.length
  remaining : reached.pending.map QueuedOperation.seqNo =
    (replica.pending.map QueuedOperation.seqNo).drop
      (ownIn replica.config.sessionId history).length
  acknowledged : ∃ told, reached.outbox = replica.outbox ++ told ∧
    told.filterMap SessionEvent.acknowledgment? =
      (replica.pending.map QueuedOperation.seqNo).zip
        ((ownIn replica.config.sessionId history).map CommittedOperation.version)

namespace Accepts

theorem nil (replica : Replica) : Accepts replica [] replica where
  config := rfl
  resyncTarget := rfl
  version := rfl
  versions := rfl
  enough := Nat.zero_le _
  remaining := rfl
  acknowledged := ⟨[], (List.append_nil _).symm, by simp [ownIn]⟩

theorem trans (first : Accepts replica history reached) (second : Accepts reached later last) :
    Accepts replica (history ++ later) last := by
  obtain ⟨told, sent, acknowledged⟩ := first.acknowledged
  obtain ⟨toldLater, sentLater, acknowledgedLater⟩ := second.acknowledged
  have kept := congrArg List.length first.remaining
  have enough := first.enough
  have enoughLater := second.enough
  simp only [List.length_map, List.length_drop] at kept
  refine ⟨second.config.trans first.config, second.resyncTarget.trans first.resyncTarget, ?_, ?_, ?_,
    ?_, told ++ toldLater, ?_, ?_⟩
  · rw [second.version, first.version, List.length_append, Nat.add_assoc]
  · rw [List.map_append, first.versions, second.versions, first.version, List.length_append,
      ← List.range'_append_1]
  · rw [first.config] at enoughLater
    rw [ownIn_append, List.length_append]
    omega
  · rw [second.remaining, first.remaining, first.config, List.drop_drop, ownIn_append,
      List.length_append]
  · rw [sentLater, sent, List.append_assoc]
  · -- the later ones take up the queue where the earlier ones have left it
    rw [List.filterMap_append, acknowledged, acknowledgedLater, first.remaining, first.config,
      ownIn_append, List.map_append, zip_append_of_le, List.length_map]
    rw [List.length_map, List.length_map]
    exact enough

end Accepts

theorem Rests.acknowledges_nothing (rests : Rests replica reached) :
    ∃ told, reached.outbox = replica.outbox ++ told ∧
      told.filterMap SessionEvent.acknowledgment? = [] := by
  obtain ⟨told, sent, quiet⟩ := rests.outbox
  exact ⟨told, sent, List.filterMap_eq_nil_iff.mpr fun event listed =>
    SessionEvent.acknowledgment?_eq_none (quiet event listed)⟩

theorem incorporate_accepts (granted : (replica.incorporate committed).2 = .ok ()) :
    Accepts replica [committed] (replica.incorporate committed).1 := by
  obtain ⟨version, resyncTarget⟩ := incorporate_counts granted
  rcases replica.incorporate_spec committed with
    declines | ⟨own, due, same⟩ | ⟨foreign, due, remote, pending, rebased, same⟩
  · exact absurd granted (declines.ne_ok ())
  · have listed : ownIn replica.config.sessionId [committed] = [committed] := by
      simp [ownIn, own]
    rw [same] at granted version resyncTarget ⊢
    rcases replica.takeHead_spec none committed.version with
      declines | ⟨head, rest, next, queued, named, -, counted⟩
    · exact absurd granted (declines.ne_ok ())
    · rw [takeHead_eq queued named due counted] at version resyncTarget ⊢
      have rests := Rests.settle ({ replica with pending := rest, version := next }.emit
        (.acknowledged head.seqNo committed.version))
      obtain ⟨told, sent, silent⟩ := rests.acknowledges_nothing
      refine ⟨rests.config, resyncTarget, version, by simp [due], ?_, ?_,
        .acknowledged head.seqNo committed.version :: told, ?_, ?_⟩
      · rw [listed, queued]
        simp
      · rw [rests.seqNos, listed, queued]
        rfl
      · rw [sent]
        exact List.append_assoc _ _ _
      · simp [listed, queued, silent, SessionEvent.acknowledgment?]
  · have absent : ownIn replica.config.sessionId [committed] = [] := by
      simp [ownIn, foreign]
    rw [same] at granted version resyncTarget ⊢
    obtain ⟨document, deliveries, declines | ⟨next, counted, reached⟩⟩ :=
      replica.applyRebased_spec committed remote pending
    · exact absurd granted (declines.ne_ok ())
    · rw [reached] at version resyncTarget ⊢
      refine ⟨rfl, resyncTarget, version, by simp [due], by simp [absent], ?_,
        [.remoteApplied committed.sessionId committed.version], rfl, ?_⟩
      · rw [absent]
        exact seqNos_rebase rebased
      · rw [absent]
        simp [SessionEvent.acknowledgment?]

theorem replay_accepts (granted : (replica.replay history).2 = .ok ()) :
    Accepts replica history (replica.replay history).1 := by
  induction history generalizing replica with
  | nil => exact .nil replica
  | cons committed rest ih =>
      rw [replay] at granted ⊢
      split at granted
      · rename_i reached went
        have first := @incorporate_accepts replica committed (by rw [went])
        rw [went] at first
        exact first.trans (ih granted)
      · rename_i reached fault stopped
        obtain ⟨other, refused⟩ := failReplay_answer reached fault
        rw [refused] at granted
        cases granted

/-! What a history is refused for. -/

theorem failReplay_class (replica : Replica) (fault other : SessionError)
    (refused : (replica.failReplay fault).2 = .error other) :
    other.IsOverflow ∨ other.requiresReload = true := by
  unfold failReplay at refused
  split at refused
  · cases refused
    exact Or.inl trivial
  · cases refused
    right
    split
    · assumption
    · rfl

theorem replay_class {fault : SessionError} (refused : (replica.replay history).2 = .error fault) :
    fault.IsOverflow ∨ fault.requiresReload = true := by
  induction history generalizing replica with
  | nil => cases refused
  | cons committed rest ih =>
      rw [replay] at refused
      split at refused
      · exact ih refused
      · exact failReplay_class _ _ _ refused

theorem completeResync_class {fault : SessionError} (resyncing : replica.state = .resyncing)
    (refused : (replica.completeResync (.ok history)).2 = .error fault) :
    fault.IsOverflow ∨ fault.requiresReload = true := by
  unfold completeResync at refused
  rw [if_neg (not_not_intro resyncing)] at refused
  simp only at refused
  split at refused
  · rename_i reached stopped
    cases refused
    exact replay_class (by rw [stopped])
  · unfold finishResync at refused
    split at refused
    · cases refused
      exact Or.inr rfl
    · cases refused

/-! While a resync waits. -/

theorem transition_ne_resyncing (replica : Replica) {next : SyncState} (elsewhere : next ≠ .resyncing) :
    (replica.transition next).state ≠ .resyncing := by
  rw [transition_eq]
  exact elsewhere

theorem Declines.ne_resyncing {α : Type} {outcome : Outcome α} (declines : replica.Declines outcome)
    (elsewhere : replica.state ≠ .resyncing) : outcome.1.state ≠ .resyncing := by
  obtain ⟨fault, rfl | rfl | rfl⟩ := declines
  · exact elsewhere
  · unfold diverge
    split
    · exact elsewhere
    · exact transition_ne_resyncing replica (by decide)
  · exact transition_ne_resyncing replica (by decide)

theorem takeHead_ne_resyncing (elsewhere : replica.state ≠ .resyncing) (seqNo : Option Word)
    (version : Word) : (replica.takeHead seqNo version).1.state ≠ .resyncing := by
  rcases replica.takeHead_spec seqNo version with
    declines | ⟨head, rest, next, queued, named, due, counted⟩
  · exact declines.ne_resyncing elsewhere
  · rw [takeHead_eq queued named due counted, settle]
    split
    · exact transition_ne_resyncing _ (by decide)
    · exact elsewhere

theorem incorporate_ne_resyncing (elsewhere : replica.state ≠ .resyncing)
    (committed : CommittedOperation) : (replica.incorporate committed).1.state ≠ .resyncing := by
  rcases replica.incorporate_spec committed with
    declines | ⟨-, -, same⟩ | ⟨-, -, remote, pending, -, same⟩
  · exact declines.ne_resyncing elsewhere
  · rw [same]
    exact takeHead_ne_resyncing elsewhere none committed.version
  · rw [same]
    obtain ⟨document, deliveries, declines | ⟨next, counted, reached⟩⟩ :=
      replica.applyRebased_spec committed remote pending
    · exact declines.ne_resyncing elsewhere
    · rw [reached]
      exact elsewhere

def Awaits (first target : Word) (replica : Replica) : Prop :=
  replica.state = .resyncing → replica.version = first ∧ replica.resyncTarget = target

variable {first target : Word}

theorem Awaits.of_elsewhere (elsewhere : replica.state ≠ .resyncing) : Awaits first target replica :=
  fun resyncing => absurd resyncing elsewhere

theorem Awaits.of_still (awaits : Awaits first target replica) (state : reached.state = replica.state)
    (version : reached.version = replica.version)
    (resyncTarget : reached.resyncTarget = replica.resyncTarget) : Awaits first target reached := by
  intro resyncing
  rw [version, resyncTarget]
  exact awaits (state.symm.trans resyncing)

theorem Awaits.perform (awaits : Awaits first target replica) {call : Call}
    (waits : (Activity.call call).Waits) : Awaits first target (replica.perform call).1 := by
  have live_ne (live : replica.state.isLive = true) : replica.state ≠ .resyncing := by
    intro resyncing
    rw [resyncing] at live
    cases live
  cases call with
  | submit now operation =>
      obtain ⟨document, deliveries, ⟨_, same⟩ | ⟨_, _, _, _, _, same⟩⟩ :=
        replica.submit_spec now operation
      · rw [Replica.perform, same]
        exact awaits.of_still rfl rfl rfl
      · rw [Replica.perform, same]
        simp only
        split
        · exact .of_elsewhere (transition_ne_resyncing _ (by decide))
        · exact awaits.of_still rfl rfl rfl
  | receive committed =>
      rw [Replica.perform, receive]
      split
      · rename_i live
        exact .of_elsewhere (incorporate_ne_resyncing (live_ne live) committed)
      · exact awaits
  | acknowledge acknowledgment =>
      rw [Replica.perform, Replica.acknowledge]
      split
      · rename_i live
        exact .of_elsewhere (takeHead_ne_resyncing (live_ne live) _ _)
      · exact awaits
  | transportFailed =>
      rw [Replica.perform, transportFailed]
      split
      · exact .of_elsewhere (transition_ne_resyncing _ (by decide))
      · exact awaits
  | beginResync serverVersion => exact waits.elim
  | completeResync history =>
      rw [Replica.perform]
      unfold completeResync
      split
      · exact awaits
      · cases history with
        | ok events => exact waits.elim
        | error fault =>
            cases fault with
            | transport reason => exact awaits.of_still rfl rfl rfl
            | unavailable first last =>
                exact .of_elsewhere (transition_ne_resyncing _ (by decide))

theorem Awaits.actAll (awaits : Awaits first target replica) {activities : List Activity}
    (waits : ∀ activity ∈ activities, activity.Waits) :
    Awaits first target (replica.actAll activities) := by
  induction activities generalizing replica with
  | nil => exact awaits
  | cons activity rest ih =>
      obtain ⟨activityWaits, restWaits⟩ := List.forall_mem_cons.mp waits
      refine ih ?_ restWaits
      cases activity with
      | call call => exact awaits.perform activityWaits
      | setReference id reference =>
          rw [act, setReference]
          split <;> exact awaits.of_still rfl rfl rfl
      | _ => exact awaits.of_still rfl rfl rfl

/-! Resync. -/

/-- How a resync ends that is granted: the history had exactly the versions up to the target, its own
operations were acknowledged from the head of the queue, and what is left of the queue is to be sent
again. -/
structure Resumes (waiting : Replica) (target : Word) (history : List CommittedOperation)
    (ended : Replica) (queue : List QueuedOperation) : Prop where
  versions : history.map (fun committed => committed.version.val) =
    versionsBetween waiting.version target
  enough : (ownIn waiting.config.sessionId history).length ≤ waiting.pending.length
  acknowledged : ∃ told, ended.outbox = waiting.outbox ++ told ∧
    told.filterMap SessionEvent.acknowledgment? =
      (waiting.pending.map QueuedOperation.seqNo).zip
        ((ownIn waiting.config.sessionId history).map CommittedOperation.version)
  remaining : queue.map QueuedOperation.seqNo =
    (waiting.pending.map QueuedOperation.seqNo).drop
      (ownIn waiting.config.sessionId history).length
  returned : ended.pending = queue
  current : ∀ entry ∈ queue, entry.contextVersion = target
  version : ended.version = target
  state : ended.state = .ofQueue queue

theorem resumes_completeResync {queue : List QueuedOperation}
    (granted : (replica.completeResync (.ok history)).2 = .ok queue) :
    Resumes replica replica.resyncTarget history (replica.completeResync (.ok history)).1 queue := by
  obtain ⟨events, same, resyncing, replayed, caughtUp⟩ := completeResync_granted granted
  cases same
  have accepts := replay_accepts replayed
  have counted := accepts.version
  rw [completeResync_eq resyncing replayed, finishResync_eq caughtUp] at granted ⊢
  cases granted
  obtain ⟨toldLast, sentLast, silent⟩ := ((Rests.transition _ _).trans
    (@Rests.emit _ (.resynced (replica.replay history).1.version) rfl)).acknowledges_nothing
  rw [transition_eq] at sentLast ⊢
  rw [accepts.resyncTarget] at caughtUp
  rw [caughtUp] at counted
  obtain ⟨told, sent, acknowledged⟩ := accepts.acknowledged
  refine ⟨?_, accepts.enough, ?_, ?_, rfl, ?_, caughtUp, ?_⟩
  · rw [accepts.versions, versionsBetween, counted, Nat.add_sub_cancel_left]
  · refine ⟨told ++ toldLast, ?_, ?_⟩
    · rw [sentLast, ← List.append_assoc, ← sent]
    · rw [List.filterMap_append, acknowledged, silent, List.append_nil]
  · rw [seqNos_restamp, accepts.remaining]
  · simp [restamp, caughtUp]
  · exact SyncState.ofQueue_congr (length_restamp _ _).symm

theorem beginResync_isOk_iff (replica : Replica) (serverVersion : Word) :
    (∃ request, (replica.beginResync serverVersion).2 = .ok request) ↔
      replica.state ≠ .unrecoverable ∧ replica.version.val ≤ serverVersion.val ∧
        serverVersion.val - replica.version.val ≤ replica.config.maxResyncGap.val := by
  unfold beginResync
  split
  · rename_i lost
    simp [invalid, lost]
  · rename_i recoverable
    split
    · rename_i behind
      simp only [failResync, fail, reduceCtorEq, exists_false, false_iff]
      omega
    · rename_i ahead
      simp only
      split
      · rename_i tooFar
        simp only [failResync, fail, reduceCtorEq, exists_false, false_iff]
        omega
      · rename_i near
        simp only [Except.ok.injEq, exists_eq', true_iff]
        exact ⟨recoverable, by omega, by omega⟩

theorem returns_beginResync (replica : Replica) (serverVersion : Word) :
    Returns (replica.beginResync serverVersion) := by
  intro fault refused
  unfold beginResync at refused
  split at refused
  · cases refused
  · split at refused
    · cases refused
    · simp only at refused
      split at refused <;> cases refused

/-- No resync leaves a gap. It begins exactly if the session is not lost and the server is ahead by no
more than the limit, and then it asks for the versions that are missing. Whatever happens until a
history arrives, the history is accepted only if it has these versions in their order; if it is not,
the session is lost, unless the words did not suffice for a position or a version. -/
theorem resync_leaves_no_gap (replica : Replica) (serverVersion : Word) :
    let begun := replica.beginResync serverVersion
    ((∃ request, begun.2 = .ok request) ↔
      replica.state ≠ .unrecoverable ∧ replica.version.val ≤ serverVersion.val ∧
        serverVersion.val - replica.version.val ≤ replica.config.maxResyncGap.val) ∧
    Returns begun ∧
    ∀ request, begun.2 = .ok request →
      begun.1.state = .resyncing ∧
      HistoryRequest.AsksFor (versionsBetween replica.version serverVersion) request ∧
      ∀ activities : List Activity, (∀ activity ∈ activities, activity.Waits) →
        let waiting := begun.1.actAll activities
        waiting.state = .resyncing → waiting.version = replica.version ∧
          ∀ history,
            let ended := waiting.completeResync (.ok history)
            (∀ queue, ended.2 = .ok queue →
              Resumes waiting serverVersion history ended.1 queue) ∧
            ∀ fault, ended.2 = .error fault → fault.IsOverflow ∨
              (ended.1.state = .unrecoverable ∧ fault.requiresReload = true) := by
  refine ⟨beginResync_isOk_iff replica serverVersion, returns_beginResync replica serverVersion, ?_⟩
  intro request granted
  obtain ⟨recoverable, ahead, near⟩ :=
    (beginResync_isOk_iff replica serverVersion).mp ⟨request, granted⟩
  rw [beginResync_eq recoverable (Nat.add_sub_of_le ahead).symm near, transition_eq] at granted ⊢
  cases granted
  refine ⟨rfl, HistoryRequest.between_asksFor _ _, ?_⟩
  intro activities waits waiting resyncing
  have awaits : Awaits replica.version serverVersion waiting :=
    Awaits.actAll (fun _ => ⟨rfl, rfl⟩) waits
  obtain ⟨version, resyncTarget⟩ := awaits resyncing
  refine ⟨version, fun history => ⟨fun queue answer => ?_, fun fault answer => ?_⟩⟩
  · rw [← resyncTarget]
    exact resumes_completeResync answer
  · refine (completeResync_class resyncing answer).imp_right fun lost => ⟨?_, lost⟩
    have state := (waiting.classifies_completeResync (.ok history)).1 fault answer
    rwa [SessionError.stateAfter, if_pos lost] at state

/-- One operation is queued, and the server is two versions ahead: by an operation of another session and
by the own one. -/
theorem resync_two_behind :
    let own : Operation := .single (.on ⟨"list"⟩ (.array (.insert .zero (.null ⟨"own"⟩))))
    let other : Operation := .single (.on ⟨"list"⟩ (.array (.insert .zero (.null ⟨"other"⟩))))
    let replica := ((start (.named "client")
      ⟨⟨"list"⟩, Arena.empty.attach none (.array ⟨"list"⟩ []), .none, true, false⟩ .zero).perform
        (.submit default own)).1
    let waiting := (replica.beginResync ⟨2, by decide⟩).1
    let history : List CommittedOperation :=
      [⟨"server", .zero, default, other⟩, ⟨"client", ⟨1, by decide⟩, default, own⟩]
    HistoryRequest.AsksFor [0, 1] (some ⟨.zero, ⟨1, by decide⟩⟩) ∧
      ∃ queue, Resumes waiting ⟨2, by decide⟩ history (waiting.completeResync (.ok history)).1 queue := by
  intro own other replica waiting history
  obtain ⟨-, -, begins⟩ := resync_leaves_no_gap replica ⟨2, by decide⟩
  obtain ⟨resyncing, asks, completes⟩ := begins (some ⟨.zero, ⟨1, by decide⟩⟩) rfl
  obtain ⟨resumes, -⟩ := (completes [] (by simp) resyncing).2 history
  have granted : (waiting.completeResync (.ok history)).2.isOk = true := by
    subst history waiting replica other own
    decide +kernel
  cases answer : (waiting.completeResync (.ok history)).2 with
  | error fault =>
      rw [answer] at granted
      cases granted
  | ok queue => exact ⟨asks, queue, resumes queue answer⟩

end Replica

end SharedDocument
