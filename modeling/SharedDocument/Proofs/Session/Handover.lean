import SharedDocument.Proofs.Session.Chronicle
import SharedDocument.Proofs.Session.Progress

/-! Handover of operations. Between two resyncs a session hands its operations to the transport in the
order of their numbers and without a gap, and stops at the first sign of trouble. While it is live, all
that it has queued has been sent. -/

namespace SharedDocument

namespace Moment

def acceptedNumber? (moment : Moment) : Option Nat :=
  match moment.deed with
  | .handover queued true => some queued.seqNo.val
  | _ => none

def IsHandover (moment : Moment) : Prop :=
  ∃ queued accepted, moment.deed = .handover queued accepted

def Halts (moment : Moment) : Prop :=
  (∃ queued, moment.deed = .handover queued false) ∨ moment.after.state.isLive = false

/-- What is handed over is queued in a live session and carries its version. Whether accepted or not, it
stays queued, and the document as it is. -/
def Proper (moment : Moment) : Prop :=
  ∀ queued accepted, moment.deed = .handover queued accepted →
    moment.before.state.isLive = true ∧ queued ∈ moment.before.pending ∧
      queued.contextVersion = moment.before.version ∧ moment.before.Keeps moment.after

theorem proper_activity (replica : Replica) (activity : Activity) :
    Proper ⟨replica, .activity activity⟩ := by
  intro _ _ same
  cases same

end Moment

def acceptedNumbers (epoch : List Moment) : List Nat :=
  epoch.filterMap Moment.acceptedNumber?

theorem acceptedNumbers_concat (epoch : List Moment) (moment : Moment) :
    acceptedNumbers (epoch ++ [moment]) =
      acceptedNumbers epoch ++ moment.acceptedNumber?.toList := by
  unfold acceptedNumbers
  rw [List.filterMap_append]
  cases accepted : moment.acceptedNumber? <;> simp [accepted]

theorem acceptedNumbers_concat_of_none (epoch : List Moment) {moment : Moment}
    (nothing : moment.acceptedNumber? = none) :
    acceptedNumbers (epoch ++ [moment]) = acceptedNumbers epoch := by
  rw [acceptedNumbers_concat, nothing]
  exact List.append_nil _

structure Sound (epoch : List Moment) : Prop where
  consecutive : ∃ first count, acceptedNumbers epoch = List.range' first count
  silent : epoch.Pairwise fun earlier later => earlier.Halts → ¬ later.IsHandover
  proper : ∀ moment ∈ epoch, moment.Proper

theorem Sound.concat {epoch : List Moment} (sound : Sound epoch) {moment : Moment}
    (consecutive : ∃ first count, acceptedNumbers (epoch ++ [moment]) = List.range' first count)
    (silent : moment.IsHandover → ∀ earlier ∈ epoch, ¬ earlier.Halts) (proper : moment.Proper) :
    Sound (epoch ++ [moment]) := by
  refine ⟨consecutive, ?_, ?_⟩
  · refine List.pairwise_append.mpr ⟨sound.silent, List.pairwise_singleton _ _, ?_⟩
    intro earlier listed later same halts handover
    rw [List.mem_singleton.mp same] at handover
    exact silent handover earlier listed halts
  · intro other listed
    rcases List.mem_append.mp listed with before | last
    · exact sound.proper other before
    · rw [List.mem_singleton.mp last]
      exact proper

namespace Replica

/-- So many numbers are given out, and no more is added to the queue. The session does not become
live. -/
structure Queues (count : Nat) (replica other : Replica) : Prop where
  live : other.state.isLive = true → replica.state.isLive = true
  nextSeqNo : other.nextSeqNo.val = replica.nextSeqNo.val + count
  length : other.pending.length ≤ replica.pending.length + count

variable {replica other last : Replica}

theorem Queues.trans (first : Queues 0 replica other) (second : Queues 0 other last) :
    Queues 0 replica last :=
  ⟨first.live ∘ second.live, second.nextSeqNo.trans first.nextSeqNo,
    second.length.trans first.length⟩

theorem queues_settle (replica : Replica) : Queues 0 replica replica.settle := by
  rw [settle_eq]
  split
  · rename_i waiting
    simp only [Bool.and_eq_true, decide_eq_true_eq] at waiting
    exact ⟨fun _ => by rw [waiting.2]; rfl, rfl, Nat.le_refl _⟩
  · exact ⟨id, rfl, Nat.le_refl _⟩

theorem Progresses.queues (progresses : Progresses replica other) : Queues 0 replica other := by
  induction progresses with
  | refl => exact ⟨id, rfl, Nat.le_refl _⟩
  | trans _ _ first second => exact first.trans second
  | work _ _ sameNumbers =>
      have sameLength := congrArg List.length sameNumbers
      rw [List.length_map, List.length_map] at sameLength
      exact ⟨id, rfl, Nat.le_of_eq sameLength⟩
  | aim | report | advance => exact ⟨id, rfl, Nat.le_refl _⟩
  | leave idle =>
      rw [transition_eq]
      exact ⟨fun live => absurd (idle.symm.trans live) Bool.false_ne_true, rfl, Nat.le_refl _⟩
  | @take replica head rest next queued _ =>
      have shorter : rest.length ≤ replica.pending.length := by
        rw [queued]
        exact Nat.le_succ _
      have taken : Queues 0 replica ({ replica with pending := rest, version := next }.emit
          (.acknowledged head.seqNo replica.version)) := ⟨id, rfl, shorter⟩
      exact taken.trans (queues_settle _)

theorem queues_drainEvents (replica : Replica) : Queues 0 replica (replica.act .drainEvents) :=
  ⟨id, rfl, Nat.le_refl _⟩

theorem contextVersion_submit {now : Instant} {operation : Operation} {queued : QueuedOperation}
    (granted : (replica.submit now operation).2 = .ok queued) :
    queued.contextVersion = replica.version := by
  unfold submit at granted
  split at granted
  · cases granted
  · split at granted
    · cases granted
    · split at granted
      · cases granted
      · simp only at granted
        split at granted
        · cases granted
        · split at granted <;> cases granted <;> rfl

theorem queues_submit {now : Instant} {operation : Operation} {queued : QueuedOperation}
    (granted : (replica.submit now operation).2 = .ok queued) :
    Queues 1 replica (replica.submit now operation).1 ∧ queued.seqNo = replica.nextSeqNo ∧
      queued.contextVersion = (replica.submit now operation).1.version ∧
      queued ∈ (replica.submit now operation).1.pending := by
  have carried := contextVersion_submit granted
  obtain ⟨document, deliveries, ⟨_, refused⟩ | ⟨next, entry, -, counted, named, same⟩⟩ :=
    replica.submit_spec now operation
  · rw [refused] at granted
    cases granted
  · have advanced := (Word.plus?_eq_ok_iff _ _ _).mp counted
    rw [same] at granted ⊢
    cases granted
    split
    · rename_i synchronized
      rw [transition_eq]
      exact ⟨⟨fun _ => by rw [synchronized]; rfl, advanced, by simp⟩, named, carried, by simp⟩
    · exact ⟨⟨id, advanced, by simp⟩, named, carried, by simp⟩

end Replica

/-- In the current epoch operations of consecutive numbers have been accepted. Only the numbers after
them are still to be sent, and none before them is queued. -/
structure Sent (chronicle : Chronicle) (unsent first count : Nat) : Prop where
  numbers : acceptedNumbers chronicle.current = List.range' first count
  next : first + count + unsent = chronicle.replica.nextSeqNo.val
  room : first + chronicle.replica.pending.length ≤ chronicle.replica.nextSeqNo.val

/-- The epochs are sound. If the session is live, nothing has halted it in the current epoch, and all that
is queued has been accepted but for so many operations at the end of the queue. -/
structure Orderly (chronicle : Chronicle) (unsent : Nat) : Prop where
  balanced : ∃ initial earlier, Replica.Balanced initial earlier chronicle.replica
  sound : ∀ epoch ∈ chronicle.epochs, Sound epoch
  going : chronicle.replica.state.isLive = true → ∀ moment ∈ chronicle.current, ¬ moment.Halts
  sent : chronicle.replica.state.isLive = true → ∃ first count, Sent chronicle unsent first count

namespace Orderly

variable {chronicle : Chronicle} {unsent : Nat}

theorem current (orderly : Orderly chronicle unsent) : Sound chronicle.current :=
  orderly.sound chronicle.current (List.mem_append_right _ List.mem_cons_self)

theorem idle (orderly : Orderly chronicle unsent) (idle : chronicle.replica.state.isLive = false)
    (other : Nat) : Orderly chronicle other :=
  ⟨orderly.balanced, orderly.sound, orderly.going,
    fun live => absurd (idle.symm.trans live) Bool.false_ne_true⟩

/-- Whatever does not complete a resync is added to the current epoch. -/
theorem concat (orderly : Orderly chronicle unsent) {deed : Deed} {later : Nat}
    (continues : Moment.isResync ⟨chronicle.replica, deed⟩ = false)
    (balanced : ∃ initial earlier,
      Replica.Balanced initial earlier (chronicle.replica.undergo deed))
    (proper : Moment.Proper ⟨chronicle.replica, deed⟩)
    (consecutive : ∃ first count,
      acceptedNumbers (chronicle.current ++ [⟨chronicle.replica, deed⟩]) = List.range' first count)
    (goes : (chronicle.replica.undergo deed).state.isLive = true →
      chronicle.replica.state.isLive = true ∧ ∀ queued, deed ≠ .handover queued false)
    (sent : (chronicle.record deed).replica.state.isLive = true →
      ∃ first count, Sent (chronicle.record deed) later first count) :
    Orderly (chronicle.record deed) later := by
  have silent : Moment.IsHandover ⟨chronicle.replica, deed⟩ →
      ∀ earlier ∈ chronicle.current, ¬ earlier.Halts := by
    rintro ⟨queued, accepted, same⟩
    exact orderly.going (proper queued accepted same).1
  rw [Chronicle.record_of_continues continues] at sent ⊢
  refine ⟨balanced, ?_, ?_, sent⟩
  · intro epoch listed
    rcases List.mem_append.mp listed with ended | current
    · exact orderly.sound epoch (List.mem_append_left _ ended)
    · rw [List.mem_singleton.mp current]
      exact orderly.current.concat consecutive silent proper
  · intro live moment listed halts
    obtain ⟨before, accepted⟩ := goes live
    rcases List.mem_append.mp listed with earlier | last
    · exact orderly.going before moment earlier halts
    · rw [List.mem_singleton.mp last] at halts
      rcases halts with ⟨queued, same⟩ | idle
      · exact accepted queued same
      · exact absurd (idle.symm.trans live) Bool.false_ne_true

theorem activity (orderly : Orderly chronicle unsent) (activity : Activity) {count : Nat}
    (continues : Moment.isResync ⟨chronicle.replica, .activity activity⟩ = false)
    (queues : chronicle.replica.Queues count (chronicle.replica.act activity)) :
    Orderly (chronicle.record (.activity activity)) (unsent + count) := by
  obtain ⟨initial, earlier, balanced⟩ := orderly.balanced
  have accepted : acceptedNumbers (chronicle.current ++ [⟨chronicle.replica, .activity activity⟩]) =
      acceptedNumbers chronicle.current := acceptedNumbers_concat_of_none _ rfl
  refine orderly.concat continues ⟨initial, _, balanced.act activity⟩ (Moment.proper_activity _ _)
    (accepted ▸ orderly.current.consecutive) (fun live => ⟨queues.live live, nofun⟩) ?_
  rw [Chronicle.record_of_continues continues]
  intro live
  obtain ⟨first, sending, sent⟩ := orderly.sent (queues.live live)
  have next := queues.nextSeqNo
  have length := queues.length
  have before := sent.next
  have room := sent.room
  refine ⟨first, sending, accepted.trans sent.numbers, ?_, ?_⟩
  · change _ = (chronicle.replica.act activity).nextSeqNo.val
    omega
  · change _ ≤ (chronicle.replica.act activity).nextSeqNo.val
    change first + (chronicle.replica.act activity).pending.length ≤ _
    omega

theorem progress (orderly : Orderly chronicle unsent) (activity : Activity)
    (continues : Moment.isResync ⟨chronicle.replica, .activity activity⟩ = false)
    (progresses : chronicle.replica.Progresses (chronicle.replica.act activity)) :
    Orderly (chronicle.record (.activity activity)) unsent :=
  orderly.activity activity continues progresses.queues

theorem resync (orderly : Orderly chronicle unsent)
    {history : Except HistoryError (List CommittedOperation)} {queue : List QueuedOperation}
    (granted : (chronicle.replica.completeResync history).2 = .ok queue) :
    Orderly (chronicle.record (.activity (.call (.completeResync history)))) queue.length := by
  obtain ⟨initial, earlier, balanced⟩ := orderly.balanced
  have completed := balanced.completeResync history
  have live := Replica.isLive_completeResync granted
  obtain ⟨answered, -⟩ := Replica.queue_completeResync granted
  have resyncs : Moment.isResync
      ⟨chronicle.replica, .activity (.call (.completeResync history))⟩ = true := by
    simp only [Moment.isResync, granted]
    rfl
  rw [Chronicle.record_of_isResync resyncs]
  refine ⟨⟨initial, earlier, completed⟩, ?_, ?_, fun _ => ?_⟩
  · intro epoch listed
    rcases List.mem_append.mp listed with ended | started
    · exact orderly.sound epoch ended
    · rw [List.mem_singleton.mp started]
      refine ⟨⟨0, 0, rfl⟩, List.pairwise_singleton _ _, fun moment first => ?_⟩
      rw [List.mem_singleton.mp first]
      exact Moment.proper_activity _ _
  · intro _ moment listed halts
    rw [List.mem_singleton.mp listed] at halts
    rcases halts with ⟨_, same⟩ | idle
    · cases same
    · exact absurd (idle.symm.trans live) Bool.false_ne_true
  · -- the new epoch starts at the first number in the queue
    have enough := completed.counts.enough
    rw [answered] at enough
    refine ⟨_, 0, rfl, Nat.sub_add_cancel enough, ?_⟩
    change _ + (chronicle.replica.completeResync history).1.pending.length ≤ _
    rw [answered]
    exact Nat.le_of_eq (Nat.sub_add_cancel enough)

theorem handover (orderly : Orderly chronicle (unsent + 1)) {queued : QueuedOperation}
    (live : chronicle.replica.state.isLive = true) (waits : queued ∈ chronicle.replica.pending)
    (carried : queued.contextVersion = chronicle.replica.version)
    (due : queued.seqNo.val + (unsent + 1) = chronicle.replica.nextSeqNo.val) :
    Orderly (chronicle.record (.handover queued true)) unsent := by
  have proper : Moment.Proper ⟨chronicle.replica, .handover queued true⟩ := by
    intro _ _ same
    cases same
    exact ⟨live, waits, carried, ⟨rfl, rfl⟩⟩
  obtain ⟨first, count, sent⟩ := orderly.sent live
  have next := sent.next
  have numbers : acceptedNumbers (chronicle.current ++
      [⟨chronicle.replica, .handover queued true⟩]) = List.range' first (count + 1) := by
    have last : first + count = queued.seqNo.val := by omega
    rw [acceptedNumbers_concat, sent.numbers, List.range'_1_concat, last]
    rfl
  refine orderly.concat rfl orderly.balanced proper ⟨first, count + 1, numbers⟩
    (fun _ => ⟨live, nofun⟩) fun _ => ⟨first, count + 1, numbers, ?_, sent.room⟩
  change _ = chronicle.replica.nextSeqNo.val
  omega

theorem refusal (orderly : Orderly chronicle unsent) {queued : QueuedOperation}
    (live : chronicle.replica.state.isLive = true) (waits : queued ∈ chronicle.replica.pending)
    (carried : queued.contextVersion = chronicle.replica.version) (other : Nat) :
    Orderly (chronicle.record (.handover queued false)) other := by
  obtain ⟨initial, earlier, balanced⟩ := orderly.balanced
  have proper : Moment.Proper ⟨chronicle.replica, .handover queued false⟩ := by
    intro _ _ same
    cases same
    exact ⟨live, waits, carried, (Replica.idles_transportFailed _).toKeeps⟩
  have accepted : acceptedNumbers (chronicle.current ++
      [⟨chronicle.replica, .handover queued false⟩]) = acceptedNumbers chronicle.current :=
    acceptedNumbers_concat_of_none _ rfl
  have idle : chronicle.replica.transportFailed.state.isLive = false := by
    rw [Replica.transportFailed, if_pos live, Replica.transition_eq]
    rfl
  refine orderly.concat rfl ⟨initial, earlier, balanced.perform .transportFailed⟩ proper
    (accepted ▸ orderly.current.consecutive) ?_ ?_
  · exact fun reached => absurd (idle.symm.trans reached) Bool.false_ne_true
  · exact fun reached => absurd (idle.symm.trans reached) Bool.false_ne_true

end Orderly

structure Replica.Ready (replica : Replica) (queue : List QueuedOperation) : Prop where
  live : replica.state.isLive = true
  waits : ∀ queued ∈ queue, queued ∈ replica.pending ∧ queued.contextVersion = replica.version
  numbers : ∃ first, first + queue.length = replica.nextSeqNo.val ∧
    (queue.map QueuedOperation.seqNo).map Word.val = List.range' first queue.length

theorem Replica.ready_submit {replica : Replica} {now : Instant} {operation : Operation}
    {queued : QueuedOperation} (granted : (replica.submit now operation).2 = .ok queued)
    (live : (replica.submit now operation).1.state.isLive = true) :
    (replica.submit now operation).1.Ready [queued] := by
  obtain ⟨queues, named, carried, waits⟩ := queues_submit granted
  refine ⟨live, List.forall_mem_singleton.mpr ⟨waits, carried⟩, queued.seqNo.val, ?_, rfl⟩
  rw [queues.nextSeqNo, named]
  rfl

theorem Replica.ready_completeResync {replica : Replica} {initial : Word}
    {earlier : List SessionEvent} (balanced : Balanced initial earlier replica)
    {history : Except HistoryError (List CommittedOperation)} {queue : List QueuedOperation}
    (granted : (replica.completeResync history).2 = .ok queue) :
    (replica.completeResync history).1.Ready queue := by
  obtain ⟨pending, carried⟩ := queue_completeResync granted
  have counts := (balanced.completeResync history).counts
  have enough := counts.enough
  have numbers := counts.queued
  rw [pending] at enough numbers
  refine ⟨isLive_completeResync granted, fun entry listed => ⟨?_, carried entry listed⟩, _,
    Nat.sub_add_cancel enough, numbers⟩
  rw [pending]
  exact listed

theorem Replica.Ready.tail {replica : Replica} {queued : QueuedOperation}
    {rest : List QueuedOperation} (ready : replica.Ready (queued :: rest)) :
    queued.seqNo.val + (rest.length + 1) = replica.nextSeqNo.val ∧ replica.Ready rest := by
  obtain ⟨first, total, numbers⟩ := ready.numbers
  rw [List.map_cons, List.map_cons, List.length_cons, List.range'_succ, List.cons.injEq] at numbers
  rw [List.length_cons] at total
  refine ⟨numbers.1 ▸ total, ready.live,
    fun entry listed => ready.waits entry (List.mem_cons_of_mem _ listed), first + 1, ?_, numbers.2⟩
  omega

namespace Orderly

variable {σ : Type} {chronicle : Chronicle}

theorem send {queue : List QueuedOperation} (orderly : Orderly chronicle queue.length)
    (ready : chronicle.replica.Ready queue) (transport : Transport σ) (network : σ) :
    Orderly (chronicle.recordAll (Session.sendDeeds transport network queue)) 0 := by
  -- what is left of the queue are the operations still to be sent
  induction queue generalizing chronicle network with
  | nil => exact orderly
  | cons queued rest ih =>
      obtain ⟨waits, carried⟩ := ready.waits queued List.mem_cons_self
      obtain ⟨due, ready⟩ := ready.tail
      rw [Session.sendDeeds]
      rcases transport.send network queued with ⟨reached, reason | _⟩
      · exact orderly.refusal ready.live waits carried 0
      · refine ih (orderly.handover ready.live waits carried due) ?_ reached
        rw [Chronicle.replica_record]
        exact ready

theorem submit (orderly : Orderly chronicle 0) (transport : Transport σ) (network : σ)
    (now : Instant) (operation : Operation) :
    Orderly (chronicle.recordAll
      (Session.deeds transport chronicle.replica network (.submit now operation))) 0 := by
  cases answer : (chronicle.replica.submit now operation).2 with
  | error fault =>
      have nothing : (Session.plan transport chronicle.replica network (.submit now operation)).queue =
          [] := by
        simp only [Session.plan, answer]
        exact ite_self _
      rw [Session.deeds, nothing]
      exact orderly.progress (.call (.submit now operation)) rfl (.submit answer)
  | ok queued =>
      have queues := (Replica.queues_submit answer).1
      have recorded := orderly.activity (.call (.submit now operation)) rfl queues
      simp only [Session.deeds, Session.plan, answer]
      split
      · rename_i live
        refine recorded.send ?_ transport network
        rw [Chronicle.replica_record]
        exact Replica.ready_submit answer live
      · -- the operation is held until a resync sends the whole queue
        rename_i held
        refine recorded.idle ?_ 0
        rw [Chronicle.replica_record]
        exact Bool.not_eq_true _ ▸ held

theorem completion (orderly : Orderly chronicle 0) (transport : Transport σ) (network : σ)
    (history : Except HistoryError (List CommittedOperation)) :
    Orderly ((chronicle.record (.activity (.call (.completeResync history)))).recordAll
      (Session.sendDeeds transport network
        ((chronicle.replica.completeResync history).2.toOption.getD []))) 0 := by
  cases answer : (chronicle.replica.completeResync history).2 with
  | error fault =>
      refine orderly.progress (.call (.completeResync history)) ?_ (.completeResync answer)
      simp only [Moment.isResync, answer]
      rfl
  | ok queue =>
      obtain ⟨initial, earlier, balanced⟩ := orderly.balanced
      have ready := Replica.ready_completeResync balanced answer
      refine (orderly.resync answer).send ?_ transport network
      rw [Chronicle.replica_record]
      exact ready

theorem perform (orderly : Orderly chronicle 0) (transport : Transport σ) (network : σ)
    (command : Command) :
    Orderly (chronicle.recordAll (Session.deeds transport chronicle.replica network command)) 0 := by
  cases command with
  | submit now operation => exact orderly.submit transport network now operation
  | receive committed =>
      exact orderly.progress (.call (.receive committed)) rfl (.receive _ committed)
  | acknowledge acknowledgment =>
      exact orderly.progress (.call (.acknowledge acknowledgment)) rfl (.acknowledge _ acknowledgment)
  | reconnected serverVersion =>
      have began := orderly.progress (.call (.beginResync serverVersion)) rfl
        (.beginResync _ serverVersion)
      simp only [Session.deeds, Session.plan]
      cases answer : (chronicle.replica.beginResync serverVersion).2 with
      | error fault => exact began
      | ok request =>
          have completed := began.completion transport (Session.fetch transport network request).1
            (Session.fetch transport network request).2
          rw [Chronicle.replica_record] at completed
          exact completed
  | subscribe filter => exact orderly.progress (.subscribe filter) rfl (.work _ _ rfl)
  | shutdown => exact orderly.progress .close rfl (.work _ _ rfl)
  | snapshot | status => exact orderly

theorem handle (orderly : Orderly chronicle 0) (transport : Transport σ) {session : Session σ}
    (same : chronicle.replica = session.replica) (command : Command) :
    Orderly (chronicle.recordAll (session.deedsOf transport command)) 0 := by
  unfold Session.deedsOf
  cases session.condition with
  | running =>
      have performed := orderly.perform transport session.network command
      rw [Chronicle.recordAll_append, ← same]
      split
      · exact performed
      · exact performed.activity .drainEvents rfl (Replica.queues_drainEvents _)
  | stopped => exact orderly
  | failed => exact orderly

theorem handleAll (orderly : Orderly chronicle 0) (transport : Transport σ) {session : Session σ}
    (same : chronicle.replica = session.replica) (commands : List Command) :
    Orderly (chronicle.recordAll (session.deedsAlong transport commands)) 0 := by
  induction commands generalizing chronicle session with
  | nil => exact orderly
  | cons command rest ih =>
      rw [Session.deedsAlong, Chronicle.recordAll_append]
      refine ih (orderly.handle transport same command) ?_
      rw [Chronicle.replica_recordAll, same, Session.replica_handle]

theorem start (config : SessionConfig) (document : Document) (version : Word) :
    Orderly (.start (.start config document version)) 0 := by
  have silent : Sound [] := ⟨⟨0, 0, rfl⟩, .nil, fun _ listed => nomatch listed⟩
  refine ⟨⟨version, [], Replica.balanced_start config document version⟩, ?_, ?_, ?_⟩
  · exact List.forall_mem_singleton.mpr silent
  · exact fun _ moment listed => absurd listed List.not_mem_nil
  · exact fun _ => ⟨0, 0, rfl, rfl, Nat.le_refl 0⟩

theorem accepted (orderly : Orderly chronicle 0) (live : chronicle.replica.state.isLive = true)
    {entry : QueuedOperation} (waits : entry ∈ chronicle.replica.pending) :
    entry.seqNo.val ∈ acceptedNumbers chronicle.current := by
  obtain ⟨first, count, sent⟩ := orderly.sent live
  obtain ⟨initial, earlier, balanced⟩ := orderly.balanced
  have listed : entry.seqNo.val ∈
      (chronicle.replica.pending.map QueuedOperation.seqNo).map Word.val :=
    List.mem_map_of_mem (List.mem_map_of_mem waits)
  have next := sent.next
  have room := sent.room
  rw [balanced.counts.queued, List.mem_range'_1] at listed
  rw [sent.numbers, List.mem_range'_1]
  omega

end Orderly

namespace Session

variable {σ : Type}

/-- Whatever commands a new session is given, and whatever its transport does, each epoch of its
chronicle is sound. If the session is live, all that is queued has been accepted in the current epoch.
The epochs hold all that was done, what has become of the replica follows from it, and the handovers in
it are those that the transport saw. -/
theorem sound_handleAll (transport : Transport σ) (network : σ) (config : SessionConfig)
    (document : Document) (version : Word) (commands : List Command) :
    let fresh := start (.start config document version) network
    let reached := fresh.handleAll transport commands
    let deeds := fresh.deedsAlong transport commands
    let chronicle := (Chronicle.start fresh.replica).recordAll deeds
    (∀ epoch ∈ chronicle.epochs, Sound epoch) ∧
      (reached.replica.state.isLive = true → ∀ entry ∈ reached.replica.pending,
        entry.seqNo.val ∈ acceptedNumbers chronicle.current) ∧
      chronicle.epochs.flatten.map Moment.deed = deeds ∧
      chronicle.replica = reached.replica ∧
      (fresh.withRecord []).handleAll transport.recording commands =
        reached.withRecord (deeds.filterMap Deed.handover?) := by
  intro fresh reached deeds chronicle
  have orderly : Orderly chronicle 0 :=
    (Orderly.start config document version).handleAll transport rfl commands
  have same : chronicle.replica = reached.replica := by
    rw [Chronicle.replica_recordAll, replica_handleAll]
    rfl
  refine ⟨orderly.sound, fun live entry waits => ?_, Chronicle.deeds_recordAll _ deeds, same,
    handleAll_recording transport [] fresh commands⟩
  rw [← same] at live waits
  exact orderly.accepted live waits

/-- The first operation cannot be sent, and the second is held. After a resync both are sent in order. -/
theorem sound_handleAll_refused_once :
    let transport : Transport Nat :=
      ⟨fun sends _ => (sends + 1, if sends = 0 then .error "offline" else .ok ()),
        fun sends _ => (sends, .ok [])⟩
    let document : Document :=
      ⟨⟨"list"⟩, Arena.empty.attach none (.array ⟨"list"⟩ []), .none, true, false⟩
    let insertion (id : String) : Operation :=
      .single (.on ⟨"list"⟩ (.array (.insert .zero (.null ⟨id⟩))))
    let commands := [Command.submit default (insertion "first"),
      .submit default (insertion "second"), .reconnected .zero]
    let fresh := start (.start (.named "client") document .zero) 0
    let reached := fresh.handleAll transport commands
    let chronicle := (Chronicle.start fresh.replica).recordAll (fresh.deedsAlong transport commands)
    reached.replica.state = .pendingAck ∧
      reached.replica.pending.map (fun entry => entry.seqNo.val) = [0, 1] ∧
      chronicle.epochs.map acceptedNumbers = [[], [0, 1]] ∧
      (∀ epoch ∈ chronicle.epochs, Sound epoch) ∧
      ∀ entry ∈ reached.replica.pending, entry.seqNo.val ∈ acceptedNumbers chronicle.current := by
  intro transport document insertion commands
  have spec := sound_handleAll transport 0 (.named "client") document .zero commands
  dsimp only at spec ⊢
  refine ⟨?_, ?_, ?_, spec.1, spec.2.1 ?_⟩
  all_goals
    subst commands insertion document transport
    decide +kernel

end Session

end SharedDocument
