import SharedDocument.Proofs.Session.Steps

/-! Accounting of a session. Whatever is done with a replica, its queue has the numbers that were given
out last, the numbers before them have been acknowledged in order, and every version since the start has
been incorporated in order. -/

namespace SharedDocument

inductive Activity where
  | call (call : Call)
  | close
  | subscribe (filter : EventFilter)
  | unsubscribe (subscription : Nat)
  | setReference (id : NodeId) (reference : Reference)
  | drainEvents
  | drainDeliveries

namespace SessionEvent

def acknowledgedNumber? : SessionEvent → Option Nat
  | .acknowledged seqNo _ => some seqNo.val
  | _ => none

def incorporatedVersion? : SessionEvent → Option Nat
  | .remoteApplied _ version => some version.val
  | .acknowledged _ version => some version.val
  | _ => none

end SessionEvent

namespace Replica

def act (replica : Replica) : Activity → Replica
  | .call call => (replica.perform call).1
  | .close => replica.close
  | .subscribe filter => (replica.subscribe filter).2
  | .unsubscribe subscription => (replica.unsubscribe subscription).2
  | .setReference id reference => (replica.setReference id reference).1
  | .drainEvents => replica.drainEvents.2
  | .drainDeliveries => replica.drainDeliveries.2

def handsOut (replica : Replica) : Activity → List SessionEvent
  | .drainEvents => replica.drainEvents.1
  | _ => []

def actAll (replica : Replica) : List Activity → Replica
  | [] => replica
  | activity :: rest => (replica.act activity).actAll rest

/-- All events up to the end of the activities, handed out or not. -/
def eventsAlong (replica : Replica) : List Activity → List SessionEvent
  | [] => replica.outbox
  | activity :: rest => replica.handsOut activity ++ (replica.act activity).eventsAlong rest

structure Counts (initial : Word) (events : List SessionEvent) (replica : Replica) : Prop where
  enough : replica.pending.length ≤ replica.nextSeqNo.val
  queued : (replica.pending.map QueuedOperation.seqNo).map Word.val =
    List.range' (replica.nextSeqNo.val - replica.pending.length) replica.pending.length
  acknowledged : events.filterMap SessionEvent.acknowledgedNumber? =
    List.range (replica.nextSeqNo.val - replica.pending.length)
  ahead : initial.val ≤ replica.version.val
  incorporated : events.filterMap SessionEvent.incorporatedVersion? =
    List.range' initial.val (replica.version.val - initial.val)
  bounded : 0 < replica.config.maxPending.val →
    replica.pending.length ≤ replica.config.maxPending.val

def Settled (replica : Replica) : Prop :=
  replica.state.isLive = true → (replica.state = .synchronized ↔ replica.pending = [])

structure Rests (replica other : Replica) : Prop where
  config : other.config = replica.config
  seqNos : other.pending.map QueuedOperation.seqNo = replica.pending.map QueuedOperation.seqNo
  nextSeqNo : other.nextSeqNo = replica.nextSeqNo
  version : other.version = replica.version
  outbox : ∃ changes, other.outbox = replica.outbox ++ changes ∧
    ∀ change ∈ changes, change.incorporatedVersion? = none

variable {replica other last : Replica} {initial : Word} {earlier events : List SessionEvent}

namespace Rests

theorem of_silent (config : other.config = replica.config)
    (seqNos : other.pending.map QueuedOperation.seqNo = replica.pending.map QueuedOperation.seqNo)
    (nextSeqNo : other.nextSeqNo = replica.nextSeqNo) (version : other.version = replica.version)
    (silent : other.outbox = replica.outbox) : Rests replica other :=
  ⟨config, seqNos, nextSeqNo, version, [], silent.trans (List.append_nil _).symm, by simp⟩

theorem refl (replica : Replica) : Rests replica replica :=
  .of_silent rfl rfl rfl rfl rfl

theorem trans (first : Rests replica other) (second : Rests other last) : Rests replica last := by
  obtain ⟨changes, sent, quiet⟩ := first.outbox
  obtain ⟨later, sentLater, quietLater⟩ := second.outbox
  refine ⟨second.config.trans first.config, second.seqNos.trans first.seqNos,
    second.nextSeqNo.trans first.nextSeqNo, second.version.trans first.version,
    changes ++ later, ?_, ?_⟩
  · rw [sentLater, sent, List.append_assoc]
  · intro change listed
    rcases List.mem_append.mp listed with early | late
    · exact quiet change early
    · exact quietLater change late

theorem length (rests : Rests replica other) : other.pending.length = replica.pending.length := by
  rw [← List.length_map QueuedOperation.seqNo, rests.seqNos, List.length_map]

theorem emit (replica : Replica) {event : SessionEvent}
    (quiet : event.incorporatedVersion? = none) : Rests replica (replica.emit event) :=
  ⟨rfl, rfl, rfl, rfl, [event], rfl, by simpa using quiet⟩

theorem transition (replica : Replica) (next : SyncState) : Rests replica (replica.transition next) := by
  rw [transition_eq]
  refine ⟨rfl, rfl, rfl, rfl, _, rfl, ?_⟩
  split <;> simp [SessionEvent.incorporatedVersion?]

theorem settle (replica : Replica) : Rests replica replica.settle := by
  rw [settle_eq]
  split
  · exact ⟨rfl, rfl, rfl, rfl, [_], rfl, by simp [SessionEvent.incorporatedVersion?]⟩
  · exact .refl replica

theorem counts (rests : Rests replica other) (counts : Counts initial (earlier ++ replica.outbox) replica) :
    Counts initial (earlier ++ other.outbox) other := by
  obtain ⟨changes, sent, quiet⟩ := rests.outbox
  have noVersion : changes.filterMap SessionEvent.incorporatedVersion? = [] :=
    List.filterMap_eq_nil_iff.mpr quiet
  have noNumber : changes.filterMap SessionEvent.acknowledgedNumber? = [] := by
    refine List.filterMap_eq_nil_iff.mpr fun change listed => ?_
    have quiet := quiet change listed
    cases change <;> simp_all [SessionEvent.incorporatedVersion?, SessionEvent.acknowledgedNumber?]
  obtain ⟨enough, queued, acknowledged, ahead, incorporated, bounded⟩ := counts
  refine ⟨?_, ?_, ?_, ?_, ?_, ?_⟩
  · rw [rests.length, rests.nextSeqNo]
    exact enough
  · rw [rests.length, rests.nextSeqNo, rests.seqNos]
    exact queued
  · rw [sent, ← List.append_assoc, List.filterMap_append, noNumber, List.append_nil, acknowledged,
      rests.length, rests.nextSeqNo]
  · rw [rests.version]
    exact ahead
  · rw [sent, ← List.append_assoc, List.filterMap_append, noVersion, List.append_nil, incorporated,
      rests.version]
  · rw [rests.config, rests.length]
    exact bounded

end Rests

theorem Settled.of_fits (fits : replica.state = .ofQueue replica.pending) : replica.Settled := by
  intro _
  rw [fits]
  unfold SyncState.ofQueue
  cases replica.pending <;> simp

theorem Settled.of_settle (waits : replica.state ≠ .synchronized) : replica.settle.Settled := by
  rw [settle_eq]
  split
  · rename_i done
    simp only [Bool.and_eq_true, List.isEmpty_iff] at done
    intro _
    simp [done.1]
  · rename_i busy
    intro live
    have pendingAck : replica.state = .pendingAck := by
      cases state : replica.state <;> simp_all [SyncState.isLive]
    have queued : replica.pending ≠ [] := by simpa [pendingAck] using busy
    simp [waits, queued]

theorem Settled.of_idle (idle : replica.state.isLive = false) : replica.Settled := by
  intro live
  rw [idle] at live
  cases live

theorem Declines.rests {α : Type} {outcome : Outcome α} (declines : replica.Declines outcome) :
    Rests replica outcome.1 := by
  obtain ⟨fault, rfl | rfl | rfl⟩ := declines
  · exact .refl replica
  · unfold diverge
    split
    · exact .refl replica
    · exact .transition replica _
  · exact .transition replica _

theorem Declines.settled {α : Type} {outcome : Outcome α} (declines : replica.Declines outcome)
    (settled : replica.Settled) : outcome.1.Settled := by
  obtain ⟨fault, rfl | rfl | rfl⟩ := declines
  · exact settled
  · unfold diverge
    split
    · exact settled
    · exact .of_idle (by rw [transition_eq]; rfl)
  · exact .of_idle (by rw [fail, transition_eq]; rfl)

structure Balanced (initial : Word) (earlier : List SessionEvent) (replica : Replica) : Prop where
  counts : Counts initial (earlier ++ replica.outbox) replica
  settled : replica.Settled

namespace Counts

theorem enqueue (counts : Counts initial events replica) {next : Word} {queued : QueuedOperation}
    (room : replica.queueIsFull = false) (counted : replica.nextSeqNo.plus? 1 = .ok next)
    (named : queued.seqNo = replica.nextSeqNo) (document : Document) (deliveries : List Delivery) :
    Counts initial events { replica with
      document := document
      deliveries := deliveries
      nextSeqNo := next
      pending := replica.pending ++ [queued] } := by
  have advanced := (Word.plus?_eq_ok_iff _ _ _).mp counted
  have enough := counts.enough
  have first : next.val - (replica.pending.length + 1) =
      replica.nextSeqNo.val - replica.pending.length := by omega
  refine ⟨?_, ?_, ?_, counts.ahead, counts.incorporated, ?_⟩
  · simp only [List.length_append, List.length_singleton]
    omega
  · simp only [List.length_append, List.length_singleton, List.map_append, first, counts.queued,
      List.range'_1_concat, List.map_singleton, named]
    rw [Nat.sub_add_cancel enough]
  · simp only [List.length_append, List.length_singleton, first]
    exact counts.acknowledged
  · intro limited
    simp only [List.length_append, List.length_singleton]
    simp only [queueIsFull, Bool.and_eq_false_iff, decide_eq_false_iff_not] at room
    rcases room with unlimited | below
    · exact absurd limited unlimited
    · exact Nat.lt_of_not_le below

theorem incorporated_next (counts : Counts initial events replica) {next : Word} {event : SessionEvent}
    (counted : replica.version.plus? 1 = .ok next)
    (carries : event.incorporatedVersion? = some replica.version.val) :
    (events ++ [event]).filterMap SessionEvent.incorporatedVersion? =
      List.range' initial.val (next.val - initial.val) := by
  have advanced := (Word.plus?_eq_ok_iff _ _ _).mp counted
  have ahead := counts.ahead
  have more : next.val - initial.val = (replica.version.val - initial.val) + 1 := by omega
  have last : initial.val + (replica.version.val - initial.val) = replica.version.val := by omega
  rw [List.filterMap_append, counts.incorporated, more, List.range'_1_concat, last]
  simp [carries]

theorem acknowledge (counts : Counts initial events replica) {next : Word} {head : QueuedOperation}
    {rest : List QueuedOperation} (waiting : replica.pending = head :: rest)
    (counted : replica.version.plus? 1 = .ok next) :
    Counts initial (events ++ [.acknowledged head.seqNo replica.version])
      ({ replica with pending := rest, version := next }.emit
        (.acknowledged head.seqNo replica.version)) := by
  have advanced := (Word.plus?_eq_ok_iff _ _ _).mp counted
  have enough := counts.enough
  have queued := counts.queued
  have acknowledged := counts.acknowledged
  have bounded := counts.bounded
  rw [waiting, List.length_cons] at enough queued acknowledged bounded
  rw [List.map_cons, List.map_cons, List.range'_succ, List.cons.injEq] at queued
  have more : replica.nextSeqNo.val - rest.length =
      replica.nextSeqNo.val - (rest.length + 1) + 1 := by omega
  refine ⟨?_, ?_, ?_, ?_, counts.incorporated_next counted rfl, ?_⟩
  · exact Nat.le_of_succ_le enough
  · rw [emit, more]
    exact queued.2
  · rw [List.filterMap_append, acknowledged, emit, more, List.range_succ, ← queued.1]
    rfl
  · rw [emit, advanced]
    exact Nat.le_succ_of_le counts.ahead
  · exact fun limited => Nat.le_of_succ_le (bounded limited)

theorem incorporate (counts : Counts initial events replica) {next : Word} (sessionId : String)
    (counted : replica.version.plus? 1 = .ok next) :
    Counts initial (events ++ [.remoteApplied sessionId replica.version])
      ({ replica with version := next }.emit (.remoteApplied sessionId replica.version)) := by
  have advanced := (Word.plus?_eq_ok_iff _ _ _).mp counted
  refine ⟨counts.enough, counts.queued, ?_, ?_, counts.incorporated_next counted rfl,
    counts.bounded⟩
  · rw [List.filterMap_append, counts.acknowledged]
    exact List.append_nil _
  · rw [emit, advanced]
    exact Nat.le_succ_of_le counts.ahead

end Counts

namespace Balanced

theorem of_rests (balanced : Balanced initial earlier replica) (rests : Rests replica other)
    (settled : other.Settled) : Balanced initial earlier other :=
  ⟨rests.counts balanced.counts, settled⟩

theorem declines {α : Type} {outcome : Outcome α} (balanced : Balanced initial earlier replica)
    (declines : replica.Declines outcome) : Balanced initial earlier outcome.1 :=
  balanced.of_rests declines.rests (declines.settled balanced.settled)

theorem transition (balanced : Balanced initial earlier replica) {next : SyncState}
    (fits : next.isLive = true → (next = .synchronized ↔ replica.pending = [])) :
    Balanced initial earlier (replica.transition next) := by
  refine balanced.of_rests (.transition replica next) ?_
  rw [transition_eq]
  exact fits

theorem failResync {α : Type} (balanced : Balanced initial earlier replica) (fault : SessionError) :
    Balanced initial earlier (replica.failResync fault : Outcome α).1 := by
  have emitted : Balanced initial earlier (replica.emit (.resyncError fault.message)) :=
    balanced.of_rests (.emit replica rfl) balanced.settled
  exact emitted.transition fun live => by cases live

theorem submit (balanced : Balanced initial earlier replica) (now : Instant) (operation : Operation) :
    Balanced initial earlier (replica.submit now operation).1 := by
  obtain ⟨document, deliveries, ⟨fault, refused⟩ | ⟨next, queued, room, counted, named, granted⟩⟩ :=
    replica.submit_spec now operation
  · rw [refused]
    exact balanced.of_rests (.of_silent rfl rfl rfl rfl rfl) balanced.settled
  · rw [granted]
    have enqueued := balanced.counts.enqueue room counted named document deliveries
    by_cases synchronized : replica.state = .synchronized
    -- before the transition the state does not fit the queue, only the counts hold
    · rw [if_pos synchronized]
      refine ⟨(Rests.transition _ _).counts enqueued, ?_⟩
      rw [transition_eq]
      intro _
      simp
    · rw [if_neg synchronized]
      exact ⟨enqueued, fun _ => by simp [synchronized]⟩

theorem takeHead (balanced : Balanced initial earlier replica) (seqNo : Option Word)
    (version : Word) : Balanced initial earlier (replica.takeHead seqNo version).1 := by
  rcases replica.takeHead_spec seqNo version with
    declines | ⟨head, rest, next, queued, named, due, counted⟩
  · exact balanced.declines declines
  · rw [takeHead_eq queued named due counted, due]
    have acknowledged := balanced.counts.acknowledge queued counted
    rw [List.append_assoc] at acknowledged
    -- a synchronized session had no head to take
    refine ⟨(Rests.settle _).counts acknowledged, .of_settle fun synchronized => ?_⟩
    have live : replica.state.isLive = true := by
      rw [show replica.state = .synchronized from synchronized]
      rfl
    have empty := (balanced.settled live).mp synchronized
    rw [queued] at empty
    cases empty

theorem applyRebased (balanced : Balanced initial earlier replica) {committed : CommittedOperation}
    (due : committed.version = replica.version) (remote : Operation) {pending : List QueuedOperation}
    (sameNumbers : pending.map QueuedOperation.seqNo = replica.pending.map QueuedOperation.seqNo) :
    Balanced initial earlier (replica.applyRebased committed remote pending).1 := by
  obtain ⟨document, deliveries, outcome⟩ := replica.applyRebased_spec committed remote pending
  have rests : Rests replica { replica with
      pending := pending
      document := document
      deliveries := deliveries } := .of_silent rfl sameNumbers rfl rfl rfl
  have settled : Settled { replica with
      pending := pending
      document := document
      deliveries := deliveries } := by
    intro live
    rw [← List.length_eq_zero_iff, rests.length, List.length_eq_zero_iff]
    exact balanced.settled live
  rcases outcome with declines | ⟨next, counted, granted⟩
  · exact (balanced.of_rests rests settled).declines declines
  · rw [granted, due]
    have incorporated := (rests.counts balanced.counts).incorporate committed.sessionId counted
    rw [List.append_assoc] at incorporated
    exact ⟨incorporated, settled⟩

theorem incorporate (balanced : Balanced initial earlier replica) (committed : CommittedOperation) :
    Balanced initial earlier (replica.incorporate committed).1 := by
  rcases replica.incorporate_spec committed with
    declines | ⟨-, -, same⟩ | ⟨-, due, remote, pending, rebased, same⟩
  · exact balanced.declines declines
  · rw [same]
    exact balanced.takeHead none committed.version
  · rw [same]
    exact balanced.applyRebased due remote (seqNos_rebase rebased)

theorem replay (balanced : Balanced initial earlier replica) (history : List CommittedOperation) :
    Balanced initial earlier (replica.replay history).1 := by
  induction history generalizing replica with
  | nil => exact balanced
  | cons committed rest ih =>
      have incorporated := balanced.incorporate committed
      rw [Replica.replay]
      split
      · rename_i reached went
        rw [went] at incorporated
        exact ih incorporated
      · rename_i reached fault stopped
        rw [stopped] at incorporated
        unfold failReplay
        split
        · exact incorporated
        · exact incorporated.failResync _

theorem finishResync (balanced : Balanced initial earlier replica) :
    Balanced initial earlier replica.finishResync.1 := by
  by_cases caughtUp : replica.version = replica.resyncTarget
  · rw [finishResync_eq caughtUp]
    have restamped : Rests replica
        { replica with pending := restamp replica.version replica.pending } :=
      .of_silent rfl (seqNos_restamp _ _) rfl rfl rfl
    refine balanced.of_rests ((restamped.trans (.transition _ _)).trans (.emit _ rfl)) ?_
    refine .of_fits ?_
    rw [transition_eq]
    exact SyncState.ofQueue_congr (length_restamp _ _).symm
  · unfold Replica.finishResync
    rw [if_pos caughtUp]
    exact balanced.failResync _

theorem completeResync (balanced : Balanced initial earlier replica)
    (history : Except HistoryError (List CommittedOperation)) :
    Balanced initial earlier (replica.completeResync history).1 := by
  unfold Replica.completeResync
  split
  · exact balanced
  · split
    · exact balanced.of_rests (.emit replica rfl) balanced.settled
    · exact balanced.failResync _
    · rename_i events
      have replayed := balanced.replay events
      split
      · rename_i reached fault stopped
        rw [stopped] at replayed
        exact replayed
      · rename_i reached went
        rw [went] at replayed
        exact replayed.finishResync

theorem beginResync (balanced : Balanced initial earlier replica) (serverVersion : Word) :
    Balanced initial earlier (replica.beginResync serverVersion).1 := by
  unfold Replica.beginResync
  split
  · exact balanced
  · split
    · exact balanced.failResync _
    · simp only
      split
      · exact balanced.failResync _
      · have aimed : Balanced initial earlier { replica with resyncTarget := serverVersion } :=
          balanced.of_rests (.of_silent rfl rfl rfl rfl rfl) balanced.settled
        exact aimed.transition fun live => by cases live

theorem perform (balanced : Balanced initial earlier replica) (call : Call) :
    Balanced initial earlier (replica.perform call).1 := by
  cases call with
  | submit now operation => exact balanced.submit now operation
  | receive committed =>
      simp only [Replica.perform, Replica.receive]
      split
      · exact balanced.incorporate committed
      · exact balanced
  | acknowledge acknowledgment =>
      simp only [Replica.perform, Replica.acknowledge]
      split
      · exact balanced.takeHead _ _
      · exact balanced
  | transportFailed =>
      simp only [Replica.perform, Replica.transportFailed]
      split
      · exact balanced.transition fun live => by cases live
      · exact balanced
  | beginResync serverVersion => exact balanced.beginResync serverVersion
  | completeResync history => exact balanced.completeResync history

theorem act (balanced : Balanced initial earlier replica) (activity : Activity) :
    Balanced initial (earlier ++ replica.handsOut activity) (replica.act activity) := by
  cases activity with
  | drainEvents =>
      -- what leaves the outbox is handed out
      have moved : earlier ++ replica.handsOut .drainEvents ++ (replica.act .drainEvents).outbox =
          earlier ++ replica.outbox := List.append_nil _
      have counts := balanced.counts
      refine ⟨?_, balanced.settled⟩
      rw [moved]
      exact ⟨counts.enough, counts.queued, counts.acknowledged, counts.ahead, counts.incorporated,
        counts.bounded⟩
  | setReference id reference =>
      change Balanced initial (earlier ++ []) (replica.setReference id reference).1
      rw [List.append_nil]
      unfold Replica.setReference
      split
      · exact balanced.of_rests (.of_silent rfl rfl rfl rfl rfl) balanced.settled
      · exact balanced
  | call call =>
      change Balanced initial (earlier ++ []) (replica.perform call).1
      rw [List.append_nil]
      exact balanced.perform call
  | close | subscribe | unsubscribe | drainDeliveries =>
      change Balanced initial (earlier ++ []) _
      rw [List.append_nil]
      exact balanced.of_rests (.of_silent rfl rfl rfl rfl rfl) balanced.settled

theorem actAll (balanced : Balanced initial earlier replica) (activities : List Activity) :
    Counts initial (earlier ++ replica.eventsAlong activities) (replica.actAll activities) ∧
      (replica.actAll activities).Settled := by
  induction activities generalizing replica earlier with
  | nil => exact ⟨balanced.counts, balanced.settled⟩
  | cons activity rest ih =>
      rw [eventsAlong, Replica.actAll, ← List.append_assoc]
      exact ih (balanced.act activity)

end Balanced

theorem balanced_start (config : SessionConfig) (document : Document) (version : Word) :
    Balanced version [] (start config document version) := by
  refine ⟨⟨Nat.le_refl 0, rfl, rfl, Nat.le_refl _, ?_, fun _ => Nat.zero_le _⟩, .of_fits rfl⟩
  rw [show (start config document version).version = version from rfl, Nat.sub_self]
  rfl

theorem seqNos_incorporate {committed : CommittedOperation}
    (foreign : committed.sessionId ≠ replica.config.sessionId) :
    (replica.incorporate committed).1.pending.map QueuedOperation.seqNo =
      replica.pending.map QueuedOperation.seqNo := by
  rcases replica.incorporate_spec committed with
    declines | ⟨own, -, -⟩ | ⟨-, -, remote, pending, rebased, same⟩
  · exact declines.rests.seqNos
  · exact absurd own foreign
  · rw [same, ← seqNos_rebase rebased]
    obtain ⟨document, deliveries, declines | ⟨next, counted, granted⟩⟩ :=
      replica.applyRebased_spec committed remote pending
    · exact declines.rests.seqNos
    · rw [granted]
      rfl

/-- After any activities on a new replica the accounts are in order, and the session is synchronized
exactly if it is live with nothing queued. Handling an operation of another session, live or in a
replay, does not change which numbers are queued. -/
theorem counts_actAll (config : SessionConfig) (document : Document) (version : Word)
    (activities : List Activity) :
    Counts version ((start config document version).eventsAlong activities)
        ((start config document version).actAll activities) ∧
      ((start config document version).actAll activities).Settled ∧
      ∀ (replica : Replica) (committed : CommittedOperation),
        committed.sessionId ≠ replica.config.sessionId →
          (replica.receive committed).1.pending.map QueuedOperation.seqNo =
              replica.pending.map QueuedOperation.seqNo ∧
            (replica.incorporate committed).1.pending.map QueuedOperation.seqNo =
              replica.pending.map QueuedOperation.seqNo := by
  obtain ⟨counts, settled⟩ := (balanced_start config document version).actAll activities
  rw [List.nil_append] at counts
  refine ⟨counts, settled, fun replica committed foreign => ⟨?_, seqNos_incorporate foreign⟩⟩
  unfold receive
  split
  · exact seqNos_incorporate foreign
  · rfl

/-- Two operations are submitted and the first is acknowledged. Then the events are handed out, and one of
another session arrives. -/
theorem counts_actAll_one_queued :
    ∃ document : Document,
      let insertion (id : String) : Operation :=
        .single (.on ⟨"list"⟩ (.array (.insert .zero (.null ⟨id⟩))))
      let fresh := start (.named "client") document .zero
      let earlier := [Activity.call (.submit default (insertion "first")),
        .call (.submit default (insertion "second")), .call (.acknowledge ⟨.zero, .zero, default⟩),
        .drainEvents]
      let arrival : CommittedOperation := ⟨"server", ⟨1, by decide⟩, default, insertion "other"⟩
      (fresh.eventsAlong (earlier ++ [.call (.receive arrival)])).filterMap
          SessionEvent.acknowledgedNumber? = [0] ∧
        (fresh.eventsAlong (earlier ++ [.call (.receive arrival)])).filterMap
          SessionEvent.incorporatedVersion? = [0, 1] ∧
        ((fresh.actAll earlier).receive arrival).1.pending.map QueuedOperation.seqNo =
          (fresh.actAll earlier).pending.map QueuedOperation.seqNo := by
  refine ⟨⟨⟨"list"⟩, Arena.empty.attach none (.array ⟨"list"⟩ []), .none, true, false⟩, ?_⟩
  intro insertion fresh earlier arrival
  obtain ⟨counts, -, foreign⟩ := counts_actAll (.named "client")
    ⟨⟨"list"⟩, Arena.empty.attach none (.array ⟨"list"⟩ []), .none, true, false⟩ .zero
    (earlier ++ [.call (.receive arrival)])
  refine ⟨counts.acknowledged.trans ?_, counts.incorporated.trans ?_,
    (foreign (fresh.actAll earlier) arrival ?_).1⟩
  all_goals
    subst arrival earlier fresh insertion
    decide +kernel

end Replica

end SharedDocument
