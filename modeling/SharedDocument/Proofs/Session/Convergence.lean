import SharedDocument.Proofs.Session.Explains

/-! Convergence of a session. However its calls are interleaved, the document of a client is that of the
server's log followed by the client's own queue. -/

namespace SharedDocument

open DataValue (Occurs)

def Call.events : Call → List CommittedOperation
  | .receive committed => [committed]
  | .completeResync (.ok events) => events
  | _ => []

namespace Replica

/-- Some of the committed operations are incorporated. The next one overflows on its way through the
queue that they leave, and nothing of it is done. -/
def BreaksOff (replica : Replica) (events : List CommittedOperation) (reached : Replica)
    (fault : Overflow) : Prop :=
  ∃ before committed after, events = before ++ committed :: after ∧
    replica.replay before = (reached, .ok ()) ∧
    rebase reached.document.arena.isAncestor committed.operation reached.pending =
      .error (.overflow fault)

variable {replica reached last : Replica} {committed : CommittedOperation}
  {events : List CommittedOperation} {fault : Overflow}

theorem BreaksOff.append (breaksOff : replica.BreaksOff events reached fault)
    (more : List CommittedOperation) : replica.BreaksOff (events ++ more) reached fault := by
  obtain ⟨before, committed, after, rfl, replayed, overflows⟩ := breaksOff
  exact ⟨before, committed, after ++ more, by simp, replayed, overflows⟩

theorem BreaksOff.cons (incorporated : replica.incorporate committed = (reached, .ok ()))
    (breaksOff : reached.BreaksOff events last fault) :
    replica.BreaksOff (committed :: events) last fault := by
  obtain ⟨before, stopped, after, rfl, replayed, overflows⟩ := breaksOff
  refine ⟨committed :: before, stopped, after, rfl, ?_, overflows⟩
  rw [replay, incorporated]
  exact replayed

end Replica

namespace Ledger

/-- The log and the queue account for the document, and the versions and the sequence numbers have been
counted. Positions that are confined at first have been pushed by the edits of the ledger at most. -/
structure Accounts (base : Document) (limit : Nat) (initial : Word) (ledger : Ledger)
    (replica : Replica) : Prop where
  explained : ∃ value known growth,
    ledger.Explains base limit replica.document (queuedEdits replica.pending) value known growth
  version : replica.version.val = initial.val + ledger.log.length
  nextSeqNo : replica.nextSeqNo.val = ledger.submitted.length
  spread : ∀ bound, ledger.Confined bound → ∃ pushed, bound ≤ pushed ∧
    Edit.Spread pushed (queuedEdits replica.pending) ∧
    pushed + (queuedEdits replica.pending).length ≤ bound + ledger.edits.length

/-- After a call the accounts are in order and the document is not lost. If the call overflows, that is in
the middle of its events, and not with confined positions. -/
structure Settles (base : Document) (limit : Nat) (initial : Word) (ledger : Ledger)
    (replica : Replica) (events : List CommittedOperation) (reached : Replica)
    (answer : Option SessionError) : Prop where
  accounts : ledger.Accounts base limit initial reached
  harmless : ∀ fault, answer = some fault → ¬ fault.FailsRemote
  breaksOff : ∀ fault, answer = some (.overflow fault) → replica.BreaksOff events reached fault
  notConfined : ∀ fault, answer = some (.overflow fault) → ∀ bound, ¬ ledger.Confined bound

variable {base : Document} {limit : Nat} {initial : Word} {ledger : Ledger}
  {replica other : Replica} {events : List CommittedOperation}

theorem Settles.of_none (accounts : ledger.Accounts base limit initial other) :
    ledger.Settles base limit initial replica events other none :=
  ⟨accounts, nofun, nofun, nofun⟩

theorem Settles.of_ok {α : Type} {outcome : Replica.Outcome α} {answer : α}
    (accounts : ledger.Accounts base limit initial outcome.1) (succeeds : outcome.2 = .ok answer) :
    ledger.Settles base limit initial replica events outcome.1 (Replica.fault? outcome) := by
  unfold Replica.fault?
  rw [succeeds]
  exact .of_none accounts

theorem Settles.of_harmless (accounts : ledger.Accounts base limit initial other)
    {fault : SessionError} (harmless : fault.IsHarmless) :
    ledger.Settles base limit initial replica events other (some fault) := by
  have never (overflow : Overflow) : some fault ≠ some (.overflow overflow) :=
    fun same => harmless.2 overflow (Option.some.inj same)
  refine ⟨accounts, ?_, fun overflow same => absurd same (never overflow),
    fun overflow same => absurd same (never overflow)⟩
  rintro _ ⟨⟩
  exact harmless.1

namespace Accounts

theorem of_idles (accounts : ledger.Accounts base limit initial replica)
    (idles : Replica.Idles replica other) : ledger.Accounts base limit initial other := by
  obtain ⟨explained, version, nextSeqNo, spread⟩ := accounts
  refine ⟨?_, ?_, ?_, ?_⟩
  · rw [idles.document, idles.pending]
    exact explained
  · rw [idles.version]
    exact version
  · rw [idles.nextSeqNo]
    exact nextSeqNo
  · rw [idles.pending]
    exact spread

theorem of_refuses {α : Type} {outcome : Replica.Outcome α}
    (accounts : ledger.Accounts base limit initial other) (refuses : Replica.Refuses other outcome) :
    ledger.Settles base limit initial replica events outcome.1 (Replica.fault? outcome) := by
  obtain ⟨idles, fault, fails, harmless⟩ := refuses
  unfold Replica.fault?
  rw [fails]
  exact .of_harmless (accounts.of_idles idles) harmless

theorem version_lt (accounts : ledger.Accounts base limit initial replica)
    (room : ledger.HasRoom initial) : replica.version.val < 0xFFFFFFFFFFFFFFFF := by
  rw [accounts.version]
  exact room.versions

theorem submit (accounts : ledger.Accounts base limit initial replica) (now : Instant)
    (operation : Operation)
    (fair : (ledger.record replica (.submit now operation)).Fair base limit)
    (room : ledger.HasRoom initial) :
    (ledger.record replica (.submit now operation)).Settles base limit initial replica events
      (replica.submit now operation).1 (Replica.fault? (replica.submit now operation)) := by
  unfold Ledger.record at fair ⊢
  rcases replica.submit_cases now operation with refuses | ⟨fault, fails, exhausted⟩ |
    ⟨result, queued, applied, succeeds, document, pending, same, version, nextSeqNo⟩
  · simp only [refuses.isOk, Bool.false_eq_true, if_false]
    exact accounts.of_refuses refuses
  · rw [accounts.nextSeqNo] at exhausted
    exact absurd room.seqNos (Nat.not_lt.mpr exhausted)
  · simp only [succeeds, Except.isOk, Except.toBool, if_true] at fair ⊢
    have counted := edits_submit ledger operation
    refine .of_ok ⟨?_, version ▸ accounts.version, ?_, fun bound confined => ?_⟩ succeeds
    · obtain ⟨value, known, growth, explains⟩ := accounts.explained
      refine ⟨value, known, growth, ?_⟩
      rw [document, pending, queuedEdits_append, queuedEdits_cons, queuedEdits_nil, same,
        List.append_nil]
      exact explains.submit fair applied
    · rw [nextSeqNo, accounts.nextSeqNo]
      simp only [Ledger.submit, List.length_append, List.length_singleton]
    · obtain ⟨pushed, grown, spread, few⟩ :=
        accounts.spread bound (confined.of_extends (submit_extends ledger operation))
      have submitted : ∀ edit ∈ operation.edits, edit.ReachesAtMost bound := fun edit listed =>
        confined.below edit (counted.mem_iff.mpr (List.mem_append_right _ listed))
      rw [pending, queuedEdits_append, queuedEdits_cons, queuedEdits_nil, same, List.append_nil,
        counted.length_eq]
      refine ⟨pushed, grown, Edit.spread_append.mpr ⟨spread, .of_forall fun edit listed =>
        (submitted edit listed).mono (Nat.le_add_right_of_le grown)⟩, ?_⟩
      simp only [List.length_append]
      omega

theorem takeHead (accounts : ledger.Accounts base limit initial replica)
    (fair : ledger.Fair base limit) (room : ledger.HasRoom initial) (seqNo : Option Word)
    (version : Word) :
    (ledger.acknowledge replica (replica.takeHead seqNo version)).Settles base limit initial replica
      events (replica.takeHead seqNo version).1
      (Replica.fault? (replica.takeHead seqNo version)) := by
  unfold Ledger.acknowledge
  rcases replica.takeHead_cases seqNo version with refuses | ⟨fault, -, exhausted⟩ |
    ⟨head, rest, queue, succeeds, document, pending, advanced, nextSeqNo⟩
  · rw [refuses.isOk, if_neg Bool.false_ne_true]
    exact accounts.of_refuses refuses
  · exact absurd (accounts.version_lt room) (Nat.not_lt.mpr exhausted)
  · simp only [succeeds, Except.isOk, Except.toBool, if_true]
    refine .of_ok ⟨?_, ?_, nextSeqNo ▸ accounts.nextSeqNo, fun bound confined => ?_⟩ succeeds
    · obtain ⟨value, known, growth, explains⟩ := accounts.explained
      rw [queue, queuedEdits_cons] at explains
      rw [document, pending, Replica.queuedEntries, queue]
      exact ⟨_, _, _, explains.advance fair replica.config.sessionId⟩
    · rw [advanced, accounts.version, Replica.queuedEntries, queue]
      simp only [enter, List.map_cons, List.take_succ_cons, List.take_zero, List.length_append,
        List.length_singleton, Nat.add_assoc]
    · obtain ⟨pushed, grown, spread, few⟩ :=
        accounts.spread bound (confined.of_extends (enter_extends ledger _))
      rw [queue, queuedEdits_cons] at spread few
      rw [List.length_append] at few
      rw [pending, edits_enter]
      exact ⟨pushed + head.operation.edits.length, Nat.le_add_right_of_le grown,
        (Edit.spread_append.mp spread).2, by omega⟩

/-- Confined positions leave room for an operation that arrives to meet the queue. -/
theorem rebase_inRange (accounts : ledger.Accounts base limit initial replica)
    {committed : CommittedOperation} {bound : Nat}
    (confined : (ledger.arrive ⟨committed.sessionId, committed.operation⟩).Confined bound) :
    ∃ pushed, bound ≤ pushed ∧
      pushed + (queuedEdits replica.pending).length ≤
        bound + (ledger.arrive ⟨committed.sessionId, committed.operation⟩).edits.length ∧
      InRange (fun result => Edit.Spread pushed (queuedEdits result.2))
        (Replica.rebase replica.document.arena.isAncestor committed.operation replica.pending) := by
  obtain ⟨pushed, grown, spread, few⟩ :=
    accounts.spread bound (confined.of_extends (arrive_extends ledger _))
  have counted : (ledger.arrive ⟨committed.sessionId, committed.operation⟩).edits =
      ledger.edits ++ committed.operation.edits := edits_arrive ledger _
  obtain ⟨below, room⟩ := confined
  rw [counted] at below room ⊢
  rw [List.length_append] at room ⊢
  have arrived : Edit.Spread pushed committed.operation.edits := .of_forall fun edit listed =>
    (below edit (List.mem_append_right _ listed)).mono grown
  exact ⟨pushed + committed.operation.edits.length, Nat.le_add_right_of_le grown, by omega,
    Replica.rebase_inRange arrived spread (by omega)⟩

/-- An operation of another session that is due meets the queue. What is left of it is applied, unless it
overflows on the way. -/
theorem arrive (accounts : ledger.Accounts base limit initial replica)
    {committed : CommittedOperation} (due : committed.version = replica.version)
    (foreign : committed.sessionId ≠ replica.config.sessionId)
    (fair : (ledger.arrive ⟨committed.sessionId, committed.operation⟩).Fair base limit)
    (room : ledger.HasRoom initial) :
    ((replica.incorporate committed).2 = .ok () ∧
      ((ledger.arrive ⟨committed.sessionId, committed.operation⟩).enter
        [⟨committed.sessionId, committed.operation⟩]).Accounts base limit initial
        (replica.incorporate committed).1) ∨
    ∃ fault, replica.incorporate committed = (replica, .error (.overflow fault)) ∧
      Replica.rebase replica.document.arena.isAncestor committed.operation replica.pending =
        .error (.overflow fault) := by
  obtain ⟨value, known, growth, explains⟩ := accounts.explained
  unfold Replica.incorporate
  rw [if_neg (not_not_intro due), if_neg foreign]
  cases rebased : Replica.rebase replica.document.arena.isAncestor committed.operation
      replica.pending with
  | error fault =>
      obtain ⟨overflow, rfl⟩ := Replica.overflow_of_rebase_error
        (fun _ listed _ otherListed => explains.arrival_kindred fair listed otherListed) rebased
      exact Or.inr ⟨overflow, rfl, rfl⟩
  | ok result =>
      obtain ⟨remote, pending⟩ := result
      obtain ⟨reached, incorporated, explained⟩ := explains.arrive fair rebased
      rcases Replica.applyRebased_cases incorporated with ⟨fault, -, exhausted⟩ |
        ⟨succeeds, sameDocument, samePending, advanced, nextSeqNo⟩
      · exact absurd (accounts.version_lt room) (Nat.not_lt.mpr exhausted)
      · refine Or.inl ⟨succeeds, ?_, ?_, nextSeqNo ▸ accounts.nextSeqNo, fun bound confined => ?_⟩
        · rw [sameDocument, samePending]
          exact ⟨_, _, _, explained⟩
        · rw [advanced, accounts.version]
          simp only [enter, Ledger.arrive, List.length_append, List.length_singleton, Nat.add_assoc]
        · obtain ⟨pushed, grown, few, inRange⟩ :=
            accounts.rebase_inRange (confined.of_extends (enter_extends _ _))
          have sameLength : (queuedEdits replica.pending).length = (queuedEdits pending).length :=
            (Replica.rebase_descends rebased).2.length_eq
          rw [rebased] at inRange
          rw [sameLength] at few
          rw [samePending]
          exact ⟨pushed, grown, inRange, few⟩

theorem breakOff (accounts : ledger.Accounts base limit initial replica)
    {committed : CommittedOperation} {fault : Overflow}
    (overflows : Replica.rebase replica.document.arena.isAncestor committed.operation
      replica.pending = .error (.overflow fault)) :
    (ledger.arrive ⟨committed.sessionId, committed.operation⟩).Settles base limit initial replica
      [committed] replica (some (.overflow fault)) := by
  have never (bound : Nat) :
      ¬ (ledger.arrive ⟨committed.sessionId, committed.operation⟩).Confined bound := by
    intro confined
    obtain ⟨pushed, -, -, inRange⟩ := accounts.rebase_inRange confined
    exact inRange.ne_overflow fault overflows
  obtain ⟨value, known, growth, explains⟩ := accounts.explained
  refine ⟨⟨⟨value, known, growth, explains.of_extends (arrive_extends ledger _) rfl⟩,
    accounts.version, accounts.nextSeqNo, fun bound confined => absurd confined (never bound)⟩,
    ?_, ?_, fun _ _ => never⟩
  · rintro _ ⟨⟩
    exact id
  · rintro _ ⟨⟩
    exact ⟨[], committed, [], rfl, rfl, overflows⟩

theorem incorporate (accounts : ledger.Accounts base limit initial replica)
    (committed : CommittedOperation) (fair : (ledger.incorporate replica committed).Fair base limit)
    (room : ledger.HasRoom initial) :
    (ledger.incorporate replica committed).Settles base limit initial replica [committed]
      (replica.incorporate committed).1 (Replica.fault? (replica.incorporate committed)) := by
  by_cases due : committed.version = replica.version
  · by_cases own : committed.sessionId = replica.config.sessionId
    · have acknowledges : replica.incorporate committed = replica.takeHead none committed.version := by
        rw [Replica.incorporate, if_neg (not_not_intro due), if_pos own]
      have ledgerFair := fair.of_extends (incorporate_extends ledger replica committed)
      rw [Ledger.incorporate, if_neg (not_not_intro due), if_pos own, acknowledges]
      exact accounts.takeHead ledgerFair room none committed.version
    · rw [Ledger.incorporate, if_neg (not_not_intro due), if_neg own] at fair ⊢
      have arriveFair : (ledger.arrive ⟨committed.sessionId, committed.operation⟩).Fair base limit := by
        simp only at fair
        split at fair
        · exact fair.of_extends (enter_extends _ _)
        · exact fair
      rcases accounts.arrive due own arriveFair room with
        ⟨succeeds, accounted⟩ | ⟨fault, stopped, overflows⟩
      · simp only [succeeds, Except.isOk, Except.toBool, if_true]
        exact .of_ok accounted succeeds
      · simp only [stopped, Except.isOk, Except.toBool, Bool.false_eq_true, if_false]
        exact accounts.breakOff overflows
  · rw [Ledger.incorporate, if_pos due, Replica.incorporate, if_pos due]
    exact accounts.of_refuses (Replica.refuses_diverge replica ⟨id, nofun⟩)

theorem replay (accounts : ledger.Accounts base limit initial replica)
    (fair : (ledger.replay replica events).Fair base limit)
    (room : (ledger.replay replica events).HasRoom initial) :
    (ledger.replay replica events).Settles base limit initial replica events
      (replica.replay events).1 (Replica.fault? (replica.replay events)) := by
  induction events generalizing ledger replica with
  | nil => exact .of_ok accounts rfl
  | cons committed rest ih =>
      have ledgerRoom := room.of_extends (replay_extends ledger replica (committed :: rest))
      unfold Ledger.replay at fair room ⊢
      unfold Replica.replay
      cases outcome : replica.incorporate committed with
      | mk reached answer =>
          have step := accounts.incorporate committed (by
            split at fair
            · exact fair.of_extends (replay_extends _ _ rest)
            · exact fair) ledgerRoom
          simp only [outcome] at fair room step ⊢
          cases answer with
          | ok _ =>
              simp only [Except.isOk, Except.toBool, if_true] at fair room ⊢
              obtain ⟨accounted, harmless, breaksOff, notConfined⟩ := ih step.accounts fair room
              exact ⟨accounted, harmless, fun fault fails => (breaksOff fault fails).cons outcome,
                notConfined⟩
          | error fault =>
              simp only [Except.isOk, Except.toBool, Bool.false_eq_true, if_false]
              obtain ⟨accounted, harmless, breaksOff, notConfined⟩ := step
              by_cases overflows : ∃ overflow, fault = .overflow overflow
              · obtain ⟨overflow, rfl⟩ := overflows
                exact ⟨accounted, harmless, fun fault fails => (breaksOff fault fails).append rest,
                  notConfined⟩
              · have isHarmless : fault.IsHarmless :=
                  ⟨harmless fault rfl, fun overflow same => overflows ⟨overflow, same⟩⟩
                exact accounted.of_refuses (Replica.refuses_failReplay reached isHarmless)

theorem completeResync (accounts : ledger.Accounts base limit initial replica)
    (history : Except HistoryError (List CommittedOperation))
    (fair : (ledger.record replica (.completeResync history)).Fair base limit)
    (room : (ledger.record replica (.completeResync history)).HasRoom initial) :
    (ledger.record replica (.completeResync history)).Settles base limit initial replica
      (Call.completeResync history).events (replica.completeResync history).1
      (Replica.fault? (replica.completeResync history)) := by
  unfold Replica.completeResync
  by_cases resyncing : replica.state = .resyncing
  · rw [if_neg (not_not_intro resyncing)]
    cases history with
    | error fault =>
        cases fault with
        | unavailable first last =>
            exact accounts.of_refuses (Replica.refuses_failResync replica ⟨id, nofun⟩)
        | transport reason =>
            exact accounts.of_refuses ⟨⟨⟨rfl, rfl⟩, rfl, rfl⟩, _, rfl, id, nofun⟩
    | ok events =>
        simp only [Ledger.record, if_pos resyncing] at fair room ⊢
        have replayed := accounts.replay fair room
        cases outcome : replica.replay events with
        | mk reached answer =>
            simp only [outcome] at replayed ⊢
            obtain ⟨accounted, harmless, breaksOff, notConfined⟩ := replayed
            cases answer with
            | error fault => exact ⟨accounted, harmless, breaksOff, notConfined⟩
            | ok _ =>
                rcases reached.finishResync_cases with
                  refuses | ⟨⟨queue, succeeds⟩, document, edits, version, nextSeqNo⟩
                · exact accounted.of_refuses refuses
                · obtain ⟨explained, counted, numbered, spread⟩ := accounted
                  refine .of_ok ⟨?_, version ▸ counted, nextSeqNo ▸ numbered, ?_⟩ succeeds
                  · rw [document, edits]
                    exact explained
                  · rw [edits]
                    exact spread
  · rw [if_pos resyncing]
    have same : ledger.record replica (.completeResync history) = ledger := by
      cases history <;> simp [Ledger.record, resyncing]
    rw [same]
    exact accounts.of_refuses (Replica.refuses_invalid replica .completeResync)

theorem beginResync (accounts : ledger.Accounts base limit initial replica) (serverVersion : Word) :
    ledger.Settles base limit initial replica events (replica.beginResync serverVersion).1
      (Replica.fault? (replica.beginResync serverVersion)) := by
  have kept := accounts.of_idles (replica.idles_beginResync serverVersion)
  unfold Replica.beginResync at kept ⊢
  split
  · exact accounts.of_refuses (Replica.refuses_invalid replica .resync)
  · split
    · exact accounts.of_refuses (Replica.refuses_failResync replica ⟨id, nofun⟩)
    · simp only
      split
      · exact accounts.of_refuses (Replica.refuses_failResync replica ⟨id, nofun⟩)
      · rename_i usable ahead close
        rw [if_neg usable, if_neg ahead] at kept
        simp only [if_neg close] at kept
        exact .of_ok kept rfl

theorem receive (accounts : ledger.Accounts base limit initial replica)
    (committed : CommittedOperation)
    (fair : (ledger.record replica (.receive committed)).Fair base limit)
    (room : ledger.HasRoom initial) :
    (ledger.record replica (.receive committed)).Settles base limit initial replica [committed]
      (replica.receive committed).1 (Replica.fault? (replica.receive committed)) := by
  unfold Ledger.record at fair ⊢
  unfold Replica.receive
  cases live : replica.state.isLive with
  | true =>
      simp only [live, if_true] at fair ⊢
      exact accounts.incorporate committed fair room
  | false =>
      simp only [Bool.false_eq_true, if_false]
      exact accounts.of_refuses (Replica.refuses_invalid replica .applyRemote)

theorem acknowledge (accounts : ledger.Accounts base limit initial replica)
    (acknowledgment : Acknowledgment) (fair : ledger.Fair base limit)
    (room : ledger.HasRoom initial) :
    (ledger.acknowledge replica (replica.acknowledge acknowledgment)).Settles base limit initial
      replica events (replica.acknowledge acknowledgment).1
      (Replica.fault? (replica.acknowledge acknowledgment)) := by
  unfold Replica.acknowledge
  cases replica.state.isLive with
  | true => exact accounts.takeHead fair room _ _
  | false =>
      have refuses : Replica.Refuses replica (replica.invalid .acknowledge : Replica.Outcome Unit) :=
        Replica.refuses_invalid replica .acknowledge
      unfold Ledger.acknowledge
      rw [if_neg Bool.false_ne_true, refuses.isOk, if_neg Bool.false_ne_true]
      exact accounts.of_refuses refuses

/-- Whatever a call does, the log and the queue account for the document after it. -/
theorem perform (accounts : ledger.Accounts base limit initial replica) (call : Call)
    (fair : (ledger.record replica call).Fair base limit)
    (room : (ledger.record replica call).HasRoom initial) :
    (ledger.record replica call).Settles base limit initial replica call.events
      (replica.perform call).1 (replica.perform call).2 := by
  have ledgerFair := fair.of_extends (record_extends ledger replica call)
  have ledgerRoom := room.of_extends (record_extends ledger replica call)
  cases call with
  | submit now operation => exact accounts.submit now operation fair ledgerRoom
  | receive committed => exact accounts.receive committed fair ledgerRoom
  | acknowledge acknowledgment => exact accounts.acknowledge acknowledgment ledgerFair ledgerRoom
  | transportFailed => exact .of_none (accounts.of_idles replica.idles_transportFailed)
  | beginResync serverVersion => exact accounts.beginResync serverVersion
  | completeResync history => exact accounts.completeResync history fair room

theorem run {calls : List Call} (accounts : ledger.Accounts base limit initial replica)
    (fair : (replica.run ledger calls).2.Fair base limit)
    (room : (replica.run ledger calls).2.HasRoom initial) :
    (replica.run ledger calls).2.Accounts base limit initial (replica.run ledger calls).1 := by
  induction calls generalizing replica ledger with
  | nil => exact accounts
  | cons call rest ih =>
      have extended := run_extends (replica.perform call).1 (ledger.record replica call) rest
      exact ih (accounts.perform call (fair.of_extends extended) (room.of_extends extended)).accounts
        fair room

/-- Every call of a run settles, and the ledger at its end extends the one after that call. -/
theorem settles {earlier later : List Call} {call : Call}
    (accounts : ledger.Accounts base limit initial replica)
    (fair : (replica.run ledger (earlier ++ call :: later)).2.Fair base limit)
    (room : (replica.run ledger (earlier ++ call :: later)).2.HasRoom initial) :
    let reached := (replica.run ledger earlier).1
    ∃ after, (replica.run ledger (earlier ++ call :: later)).2.Extends after ∧
      after.Settles base limit initial reached call.events (reached.perform call).1
        (reached.perform call).2 := by
  rw [Replica.run_append] at fair room ⊢
  have extended := run_extends ((replica.run ledger earlier).1.perform call).1
    ((replica.run ledger earlier).2.record (replica.run ledger earlier).1 call) later
  have callFair := fair.of_extends extended
  have callRoom := room.of_extends extended
  have before := record_extends (replica.run ledger earlier).2 (replica.run ledger earlier).1 call
  exact ⟨_, extended, (accounts.run (callFair.of_extends before) (callRoom.of_extends before)).perform
    call callFair callRoom⟩

end Accounts

theorem accounts_start (reachable : base.Reachable) (isOpen : base.isClosed = false)
    {value : DataValue} (snapshot : base.snapshot = .ok value) (config : SessionConfig) (version : Word)
    (bounded : ∀ id node, base.arena.node? id = some node → node.data.extent ≤ limit) :
    Ledger.empty.Accounts base limit version (Replica.start config base version) := by
  have mirrors := reachable.mirrors_snapshot isOpen snapshot
  have stored {outerParent parent : Option NodeId} {inner : DataValue}
      (occurs : Occurs outerParent value parent inner) :
      ∃ node, base.arena.node? inner.id = some node ∧ node.data = inner.data := by
    obtain ⟨otherParent, stands⟩ := occurs.exists_below none
    exact ⟨_, mirrors.arena.represents.holds _ _ stands, rfl⟩
  refine ⟨⟨value, _, 0, ⟨base, rfl, mirrors⟩, ?_, ⟨trivial, trivial, List.nodup_nil, ?_⟩,
    fun _ => Or.inl, fun _ listed => listed, ?_, ?_, Nat.le_refl _, ?_⟩, rfl, rfl,
    fun bound _ => ⟨bound, Nat.le_refl _, trivial, Nat.le_refl _⟩⟩
  · refine ⟨mirrors.arena.congr fun id => ?_, mirrors.root, mirrors.isOpen⟩
    exact ⟨Or.inl, fun either => either.resolve_right List.not_mem_nil⟩
  · exact fun _ listed => absurd listed List.not_mem_nil
  · intro outerParent parent inner occurs
    obtain ⟨node, found, same⟩ := stored occurs
    refine Or.inl ⟨node, found, ?_⟩
    rw [same, DataValue.kind_data]
  · intro outerParent parent inner occurs
    obtain ⟨node, found, same⟩ := stored occurs
    have bound := bounded _ _ found
    rwa [same, NodeData.extent_data] at bound
  · exact fun _ listed => absurd listed List.not_mem_nil

end Ledger

/-- Convergence of a session: after any run of calls in which neither the versions nor the sequence
numbers run out, the log and then the queue can be replayed on the document that the session was started
with. That leads to the client's own document: it has the same nodes and the same snapshot, and the same
ids count as detached. No call fails to transform or to apply a remote operation. Calls that overflow are
part of the run: such a call stops at an operation that overflows on its way through the queue, and
nothing of that one is done or enters the log. It takes a position close to the last word, so no call
overflows while all positions are confined. -/
theorem Replica.run_converges {base : Document} (reachable : base.Reachable)
    (isOpen : base.isClosed = false) {value : DataValue} (snapshot : base.snapshot = .ok value)
    (config : SessionConfig) (version : Word) (calls : List Call) {replica : Replica}
    {ledger : Ledger} (ran : (start config base version).run .empty calls = (replica, ledger))
    {limit : Nat} (fair : ledger.Fair base limit) (room : ledger.HasRoom version) :
    (∃ reached, base.replay (ledger.log ++ replica.queuedEntries) = .ok reached ∧
      reached.arena.nodes = replica.document.arena.nodes ∧
      (∀ id, reached.arena.isDetached id = replica.document.arena.isDetached id) ∧
      ∃ last, reached.snapshot = .ok last ∧ replica.document.snapshot = .ok last) ∧
    (∀ fault ∈ (start config base version).faults calls, ¬ fault.FailsRemote) ∧
    (∀ earlier call later fault, calls = earlier ++ call :: later →
      let before := ((start config base version).run .empty earlier).1
      (before.perform call).2 = some (.overflow fault) →
        before.BreaksOff call.events (before.perform call).1 fault) ∧
    ∀ bound, ledger.Confined bound →
      ∀ fault, SessionError.overflow fault ∉ (start config base version).faults calls := by
  have started := Ledger.accounts_start reachable isOpen snapshot config version fair.bounded
  have ranFair : ((start config base version).run .empty calls).2.Fair base limit := by
    rw [ran]
    exact fair
  have ranRoom : ((start config base version).run .empty calls).2.HasRoom version := by
    rw [ran]
    exact room
  refine ⟨?_, fun fault listed => ?_, ?_, fun bound confined fault listed => ?_⟩
  · have accounts := started.run ranFair ranRoom
    rw [ran] at accounts
    obtain ⟨reachedValue, known, growth, explains⟩ := accounts.explained
    obtain ⟨reached, last, knownLast, replayed, mirrors, ownMirrors⟩ :=
      explains.replays_queue fair replica.config.sessionId
    exact ⟨reached, replayed, mirrors.arena.nodes_eq ownMirrors.arena,
      mirrors.arena.isDetached_eq ownMirrors.arena, last,
      mirrors.snapshot_eq_ok fun _ _ => id, ownMirrors.snapshot_eq_ok fun _ _ => id⟩
  · obtain ⟨earlier, call, later, rfl, fails⟩ := exists_of_mem_faults .empty listed
    obtain ⟨after, -, settles⟩ := started.settles ranFair ranRoom
    exact settles.harmless fault fails
  · rintro earlier call later fault rfl before fails
    obtain ⟨after, -, settles⟩ := started.settles ranFair ranRoom
    exact settles.breaksOff fault fails
  · obtain ⟨earlier, call, later, rfl, fails⟩ := exists_of_mem_faults .empty listed
    obtain ⟨after, extended, settles⟩ := started.settles ranFair ranRoom
    rw [ran] at extended
    exact settles.notConfined fault fails bound (confined.of_extends extended)

/-- An element is inserted in an array that another session detaches. A third operation, which the log
skips, removes what stands at the last word of that array: it overflows when it meets the insertion. Up to
then all positions are confined, and nothing overflows. -/
theorem Replica.run_converges_overflowing :
    let base : Document :=
      ⟨⟨"root"⟩, Arena.empty.attach none (.object ⟨"root"⟩ [("key", .array ⟨"list"⟩ [])]), .none, true,
        false⟩
    let insertion : Operation := .single (.on ⟨"list"⟩ (.array (.insert .zero (.null ⟨"own"⟩))))
    let detachment : Operation := .single (.on ⟨"root"⟩ (.property (.remove "key")))
    let removal : Operation := .single (.on ⟨"list"⟩ (.array (.remove .last)))
    let earlier := [Call.submit default insertion,
      .receive ⟨"server", .zero, default, detachment⟩]
    let last := Call.receive ⟨"server", ⟨1, by decide⟩, default, removal⟩
    let fresh := start (.named "client") base .zero
    let before := (fresh.run .empty earlier).1
    ∃ replica ledger, fresh.run .empty (earlier ++ [last]) = (replica, ledger) ∧
      fresh.faults (earlier ++ [last]) = [.overflow .addition] ∧
      before.BreaksOff last.events (before.perform last).1 .addition ∧
      ledger.log.length = 1 ∧ replica.pending.length = 1 ∧
      (∃ reached, base.replay (ledger.log ++ replica.queuedEntries) = .ok reached ∧
        replica.document.snapshot = reached.snapshot) ∧
      (fresh.run .empty earlier).2.Confined 0 ∧
      ∀ fault, SessionError.overflow fault ∉ fresh.faults earlier := by
  intro base insertion detachment removal earlier last fresh before
  have reachable : base.Reachable := by
    refine ⟨.object ⟨"root"⟩ [("key", .array ⟨"list"⟩ [])], _, [], .intro ?_ ?_, rfl, by simp, rfl⟩
    · simp [DataValue.KeysIncrease, Keyed.Increasing]
    · exact List.forall_mem_singleton.mpr (.leaf rfl)
  have plain : insertion.Plain := Operation.plain_insert ⟨"list"⟩ ⟨"own"⟩ .zero
  let ledger : Ledger :=
    ⟨[⟨"server", detachment⟩], [insertion],
      [⟨[], "server", detachment⟩, ⟨[⟨"server", detachment⟩], "server", removal⟩]⟩
  have fair : ledger.Fair base 0 := by
    refine ⟨List.forall_mem_singleton.mpr plain, ?_, ?_, ?_, ?_, by decide, by decide, ?_, ?_,
      by decide⟩
    · refine List.forall_mem_cons.mpr ⟨?_, List.forall_mem_singleton.mpr ?_⟩ <;>
        exact List.forall_mem_singleton.mpr ⟨fun _ listed => absurd listed List.not_mem_nil, trivial⟩
    · refine List.forall_mem_cons.mpr ⟨?_, List.forall_mem_singleton.mpr ?_⟩ <;>
        exact List.forall_mem_singleton.mpr fun numeric => by cases numeric
    · refine List.forall_mem_cons.mpr ⟨?_, List.forall_mem_singleton.mpr ?_⟩ <;>
        refine List.forall_mem_singleton.mpr fun kind recorded => ?_ <;>
        obtain ⟨node, found, rfl⟩ := recorded.exists_node (by decide) <;>
        cases found <;> rfl
    · exact List.forall_mem_cons.mpr ⟨⟨_, rfl⟩, List.forall_mem_singleton.mpr ⟨_, rfl⟩⟩
    · intro id node found
      change Keyed.find? id [(⟨"list"⟩, ⟨⟨"list"⟩, some ⟨"root"⟩, .array []⟩),
        (⟨"root"⟩, ⟨⟨"root"⟩, none, .object [("key", ⟨"list"⟩)]⟩)] = some node at found
      simp only [Keyed.find?] at found
      split at found
      · cases found
        exact Nat.le_refl 0
      · split at found
        · cases found
          exact Nat.le_refl 0
        · cases found
    · have childless : (DataValue.null ⟨"own"⟩).Bounded 0 := fun _ _ inner occurs => by
        rw [occurs.eq_of_childless rfl]
        exact Nat.le_refl 0
      refine List.forall_mem_cons.mpr ⟨List.forall_mem_singleton.mpr childless, ?_⟩
      refine List.forall_mem_cons.mpr ⟨?_, List.forall_mem_singleton.mpr ?_⟩ <;>
        exact fun _ listed => absurd listed List.not_mem_nil
  have ran : (fresh.run .empty (earlier ++ [last])).2 = ledger ∧
      (fresh.run .empty (earlier ++ [last])).1.pending.length = 1 := by
    subst ledger before last earlier fresh base insertion detachment removal
    exact ⟨rfl, rfl⟩
  have overflows : (before.perform last).2 = some (.overflow .addition) := by
    subst ledger before last earlier fresh base insertion detachment removal
    rfl
  have faults : fresh.faults (earlier ++ [last]) = [.overflow .addition] := by
    subst ledger before last earlier fresh base insertion detachment removal
    rfl
  let started : Ledger := ⟨[⟨"server", detachment⟩], [insertion], [⟨[], "server", detachment⟩]⟩
  have ranEarlier : (fresh.run .empty earlier).2 = started := by
    subst started ledger before last earlier fresh base insertion detachment removal
    rfl
  have extended : ledger.Extends started :=
    ⟨List.prefix_rfl, .refl _, List.sublist_append_left _ [_]⟩
  have confined : started.Confined 0 := by
    refine ⟨List.forall_mem_cons.mpr ⟨fun _ => Nat.le_refl 0, ?_⟩, by decide⟩
    exact List.forall_mem_singleton.mpr fun _ => Nat.le_refl 0
  obtain ⟨-, -, -, returns⟩ := run_converges reachable rfl rfl (.named "client") .zero earlier
    (Prod.ext rfl ranEarlier) (fair.of_extends extended) ⟨by decide, by decide⟩
  generalize whole : fresh.run .empty (earlier ++ [last]) = outcome at ran
  obtain ⟨replica, reached⟩ := outcome
  obtain ⟨rfl, queued⟩ := ran
  obtain ⟨⟨reached, replayed, -, -, final, snapshot, ownSnapshot⟩, -, breaksOff, -⟩ :=
    run_converges reachable rfl rfl (.named "client") .zero (earlier ++ [last]) whole fair
      ⟨by decide, by decide⟩
  exact ⟨replica, _, rfl, faults, breaksOff earlier last [] .addition rfl overflows, rfl, queued,
    ⟨reached, replayed, ownSnapshot.trans snapshot.symm⟩, ranEarlier ▸ confined,
    returns 0 confined⟩

end SharedDocument
