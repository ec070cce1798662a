import SharedDocument.Proofs.Session.Accounting
import SharedDocument.Proofs.Transform.Nesting

/-! What queued operations keep. However often an entry of the queue is transformed, it stays an operation
of the same grouping on the same nodes that creates the same values. So the number of an entry stands for
one operation as long as it is queued. -/

namespace SharedDocument

open Operation (Retains)

namespace Replica

theorem retains_of_rebase {ancestry : Ancestry} {remote : Operation} {queue : List QueuedOperation}
    {result : Operation × List QueuedOperation}
    (succeeds : rebase ancestry remote queue = .ok result) :
    ∀ rebased ∈ result.2, ∃ entry ∈ queue, entry.seqNo = rebased.seqNo ∧
      Retains entry.operation rebased.operation := by
  induction queue generalizing remote result with
  | nil =>
      cases succeeds
      simp
  | cons entry rest ih =>
      obtain ⟨pair, further, transformed, later, rfl⟩ := rebase_cons_eq_ok succeeds
      refine List.forall_mem_cons.mpr ⟨?_, fun rebased listed => ?_⟩
      · exact ⟨entry, List.mem_cons_self, rfl, (Operation.retains_of_transform transformed).2⟩
      · obtain ⟨older, queued, kept⟩ := ih later rebased listed
        exact ⟨older, List.mem_cons_of_mem _ queued, kept⟩

structure Carries (replica other : Replica) : Prop where
  counted : replica.nextSeqNo.val ≤ other.nextSeqNo.val
  entries : ∀ entry ∈ other.pending, replica.nextSeqNo.val ≤ entry.seqNo.val ∨
    ∃ older ∈ replica.pending, older.seqNo = entry.seqNo ∧
      Retains older.operation entry.operation

variable {α : Type} {replica other last : Replica}

namespace Carries

theorem of_sublist (nextSeqNo : other.nextSeqNo = replica.nextSeqNo)
    (fewer : other.pending.Sublist replica.pending) : Carries replica other where
  counted := Nat.le_of_eq (congrArg Word.val nextSeqNo.symm)
  entries := fun entry listed => Or.inr ⟨entry, fewer.subset listed, rfl, .refl _⟩

theorem of_same (nextSeqNo : other.nextSeqNo = replica.nextSeqNo)
    (pending : other.pending = replica.pending) : Carries replica other :=
  .of_sublist nextSeqNo (pending ▸ .refl _)

theorem refl (replica : Replica) : Carries replica replica :=
  .of_same rfl rfl

theorem trans (first : Carries replica other) (second : Carries other last) :
    Carries replica last where
  counted := Nat.le_trans first.counted second.counted
  entries := by
    intro entry listed
    rcases second.entries entry listed with new | ⟨older, queued, number, retains⟩
    · exact Or.inl (Nat.le_trans first.counted new)
    · rcases first.entries older queued with new | ⟨oldest, before, oldNumber, oldRetains⟩
      · exact Or.inl (number ▸ new)
      · exact Or.inr ⟨oldest, before, oldNumber.trans number, oldRetains.trans retains⟩

theorem transition (replica : Replica) (next : SyncState) :
    Carries replica (replica.transition next) := by
  rw [transition_eq]
  exact .of_same rfl rfl

theorem settle (replica : Replica) : Carries replica replica.settle := by
  unfold Replica.settle
  split
  · exact .transition replica _
  · exact .refl replica

theorem declines {outcome : Outcome α} (declines : replica.Declines outcome) :
    Carries replica outcome.1 := by
  obtain ⟨fault, rfl | rfl | rfl⟩ := declines
  · exact .refl replica
  · unfold diverge
    split
    · exact .refl replica
    · exact .transition replica _
  · exact .transition replica _

theorem failResync (replica : Replica) (fault : SessionError) :
    Carries replica (replica.failResync fault : Outcome α).1 :=
  have emitted : Carries replica (replica.emit (.resyncError fault.message)) := .of_same rfl rfl
  emitted.trans (.transition _ _)

theorem submit (replica : Replica) (now : Instant) (operation : Operation) :
    Carries replica (replica.submit now operation).1 := by
  obtain ⟨document, deliveries, ⟨fault, refused⟩ | ⟨next, queued, -, counted, named, granted⟩⟩ :=
    replica.submit_spec now operation
  · rw [refused]
    exact .of_same rfl rfl
  · rw [granted]
    have enqueued : Carries replica { replica with
        document := document
        deliveries := deliveries
        nextSeqNo := next
        pending := replica.pending ++ [queued] } := by
      refine ⟨?_, fun entry listed => ?_⟩
      · rw [(Word.plus?_eq_ok_iff _ _ _).mp counted]
        exact Nat.le_succ _
      · rcases List.mem_append.mp listed with old | new
        · exact Or.inr ⟨entry, old, rfl, .refl _⟩
        · rw [List.mem_singleton.mp new, named]
          exact Or.inl (Nat.le_refl _)
    dsimp only
    split
    · exact enqueued.trans (.transition _ _)
    · exact enqueued

theorem takeHead (replica : Replica) (seqNo : Option Word) (version : Word) :
    Carries replica (replica.takeHead seqNo version).1 := by
  rcases replica.takeHead_spec seqNo version with
    declines | ⟨head, rest, next, queued, named, due, counted⟩
  · exact .declines declines
  · rw [takeHead_eq queued named due counted]
    have taken : Carries replica ({ replica with pending := rest, version := next }.emit
        (.acknowledged head.seqNo version)) :=
      .of_sublist rfl (queued ▸ List.sublist_cons_self head rest)
    exact taken.trans (.settle _)

theorem incorporate (replica : Replica) (committed : CommittedOperation) :
    Carries replica (replica.incorporate committed).1 := by
  rcases replica.incorporate_spec committed with
    declines | ⟨-, -, same⟩ | ⟨-, -, remote, pending, rebased, same⟩
  · exact .declines declines
  · rw [same]
    exact .takeHead replica none committed.version
  · rw [same]
    obtain ⟨document, deliveries, outcome⟩ := replica.applyRebased_spec committed remote pending
    have transformed : Carries replica { replica with
        pending := pending
        document := document
        deliveries := deliveries } := by
      exact ⟨Nat.le_refl _, fun entry listed => Or.inr (retains_of_rebase rebased entry listed)⟩
    rcases outcome with declines | ⟨next, -, granted⟩
    · exact transformed.trans (.declines declines)
    · rw [granted]
      exact transformed.trans (.of_same rfl rfl)

theorem replay (replica : Replica) (history : List CommittedOperation) :
    Carries replica (replica.replay history).1 := by
  induction history generalizing replica with
  | nil => exact .refl replica
  | cons committed rest ih =>
      have incorporated := Carries.incorporate replica committed
      rw [Replica.replay]
      split
      · rename_i reached went
        rw [went] at incorporated
        exact incorporated.trans (ih reached)
      · rename_i reached fault stopped
        rw [stopped] at incorporated
        unfold failReplay
        split
        · exact incorporated
        · exact incorporated.trans (.failResync reached _)

theorem finishResync (replica : Replica) : Carries replica replica.finishResync.1 := by
  by_cases caughtUp : replica.version = replica.resyncTarget
  · rw [finishResync_eq caughtUp]
    have restamped : Carries replica
        { replica with pending := restamp replica.version replica.pending } := by
      refine ⟨Nat.le_refl _, fun entry listed => Or.inr ?_⟩
      obtain ⟨older, queued, rfl⟩ := List.mem_map.mp listed
      exact ⟨older, queued, rfl, .refl _⟩
    exact (restamped.trans (.transition _ _)).trans (.of_same rfl rfl)
  · unfold Replica.finishResync
    rw [if_pos caughtUp]
    exact .failResync replica _

theorem beginResync (replica : Replica) (serverVersion : Word) :
    Carries replica (replica.beginResync serverVersion).1 := by
  unfold Replica.beginResync
  split
  · exact .refl replica
  · split
    · exact .failResync replica _
    · simp only
      split
      · exact .failResync replica _
      · have aimed : Carries replica { replica with resyncTarget := serverVersion } :=
          .of_same rfl rfl
        exact aimed.trans (.transition _ _)

theorem completeResync (replica : Replica)
    (history : Except HistoryError (List CommittedOperation)) :
    Carries replica (replica.completeResync history).1 := by
  unfold Replica.completeResync
  split
  · exact .refl replica
  · split
    · exact .of_same rfl rfl
    · exact .failResync replica _
    · rename_i events
      have replayed := Carries.replay replica events
      split
      · rename_i reached fault stopped
        rw [stopped] at replayed
        exact replayed
      · rename_i reached went
        rw [went] at replayed
        exact replayed.trans (.finishResync reached)

theorem perform (replica : Replica) (call : Call) : Carries replica (replica.perform call).1 := by
  cases call with
  | submit now operation => exact .submit replica now operation
  | receive committed =>
      simp only [Replica.perform, Replica.receive]
      split
      · exact .incorporate replica committed
      · exact .refl replica
  | acknowledge acknowledgment =>
      simp only [Replica.perform, Replica.acknowledge]
      split
      · exact .takeHead replica _ _
      · exact .refl replica
  | transportFailed =>
      simp only [Replica.perform, Replica.transportFailed]
      split
      · exact .transition replica _
      · exact .refl replica
  | beginResync serverVersion => exact .beginResync replica serverVersion
  | completeResync history => exact .completeResync replica history

theorem act (replica : Replica) (activity : Activity) : Carries replica (replica.act activity) := by
  cases activity with
  | call call => exact .perform replica call
  | setReference id reference =>
      change Carries replica (replica.setReference id reference).1
      unfold Replica.setReference
      split
      · exact .of_same rfl rfl
      · exact .refl replica
  | close | subscribe | unsubscribe | drainEvents | drainDeliveries => exact .of_same rfl rfl

theorem actAll (replica : Replica) (activities : List Activity) :
    Carries replica (replica.actAll activities) := by
  induction activities generalizing replica with
  | nil => exact .refl replica
  | cons activity rest ih => exact (Carries.act replica activity).trans (ih _)

end Carries

theorem actAll_append (replica : Replica) (earlier later : List Activity) :
    replica.actAll (earlier ++ later) = (replica.actAll earlier).actAll later := by
  induction earlier generalizing replica with
  | nil => rfl
  | cons activity rest ih => exact ih _

/-- The queue is numbered below the next number, and no number is given twice. -/
theorem Counts.distinct {initial : Word} {events : List SessionEvent}
    (counts : Counts initial events replica) {entry : QueuedOperation}
    (listed : entry ∈ replica.pending) :
    entry.seqNo.val < replica.nextSeqNo.val ∧
      ∀ other ∈ replica.pending, other.seqNo = entry.seqNo → other = entry := by
  have numbers : replica.pending.map (fun entry => entry.seqNo.val) =
      List.range' (replica.nextSeqNo.val - replica.pending.length) replica.pending.length := by
    rw [← counts.queued, List.map_map]
    rfl
  have distinct : (replica.pending.map fun entry => entry.seqNo.val).Nodup :=
    numbers ▸ List.nodup_range'
  refine ⟨?_, fun other otherListed same =>
    List.inj_on_of_nodup_map distinct otherListed listed (congrArg Word.val same)⟩
  have number : entry.seqNo.val ∈ replica.pending.map fun entry => entry.seqNo.val :=
    List.mem_map_of_mem listed
  have enough := counts.enough
  rw [numbers, List.mem_range'_1] at number
  omega

/-- Whatever two operations are transformed against each other, each keeps its grouping and, edit by edit,
its nodes with their kinds and the values that it creates; edits only ever become no-ops. And whatever a
session does, an entry of its queue keeps all that as long as its number is queued. -/
theorem retains_actAll (config : SessionConfig) (document : Document) (version : Word)
    (earlier later : List Activity) :
    (∀ (ancestry : Ancestry) (server client : Operation) (pair : Transformed Operation),
      server.transform ancestry client = .ok pair →
        Retains server pair.server ∧ Retains client pair.client) ∧
    ∀ entry ∈ ((start config document version).actAll earlier).pending,
      ∀ reached ∈ ((start config document version).actAll (earlier ++ later)).pending,
        reached.seqNo = entry.seqNo → Retains entry.operation reached.operation := by
  refine ⟨fun _ _ _ _ => Operation.retains_of_transform, fun entry listed reached queued same => ?_⟩
  obtain ⟨counts, -⟩ := (balanced_start config document version).actAll earlier
  -- a number that is queued is below the next one, so it cannot have been given again since
  obtain ⟨given, unique⟩ := counts.distinct listed
  rw [actAll_append] at queued
  rcases (Carries.actAll _ later).entries reached queued with new | ⟨older, before, number, retains⟩
  · rw [same] at new
    exact absurd given (Nat.not_lt.mpr new)
  · rw [← unique older before (number.trans same)]
    exact retains

/-- A replacement is queued when another session removes the element. The entry becomes an insertion. -/
theorem retains_actAll_replacement :
    let elements := DataValue.array ⟨"list"⟩ [.null ⟨"old"⟩]
    let document : Document := ⟨⟨"list"⟩, Arena.empty.attach none elements, .none, true, false⟩
    let edit (change : ArrayEdit) : Operation := .single (.on ⟨"list"⟩ (.array change))
    let earlier := [Activity.call (.submit default (edit (.replace .zero (.null ⟨"new"⟩))))]
    let arrival : CommittedOperation := ⟨"server", .zero, default, edit (.remove .zero)⟩
    let fresh := start (.named "client") document .zero
    ∃ entry ∈ (fresh.actAll earlier).pending,
      ∃ reached ∈ (fresh.actAll (earlier ++ [.call (.receive arrival)])).pending,
        entry.operation = edit (.replace .zero (.null ⟨"new"⟩)) ∧
          reached.operation = edit (.insert .zero (.null ⟨"new"⟩)) ∧
          Retains entry.operation reached.operation := by
  intro elements document edit earlier arrival fresh
  have queued : (fresh.actAll earlier).pending =
      [⟨"client", .zero, .zero, default, edit (.replace .zero (.null ⟨"new"⟩))⟩] := rfl
  have rebased : (fresh.actAll (earlier ++ [.call (.receive arrival)])).pending =
      [⟨"client", .zero, .zero, default, edit (.insert .zero (.null ⟨"new"⟩))⟩] := rfl
  have listed := List.mem_singleton_self
    (⟨"client", .zero, .zero, default, edit (.replace .zero (.null ⟨"new"⟩))⟩ : QueuedOperation)
  have reachedListed := List.mem_singleton_self
    (⟨"client", .zero, .zero, default, edit (.insert .zero (.null ⟨"new"⟩))⟩ : QueuedOperation)
  rw [← queued] at listed
  rw [← rebased] at reachedListed
  exact ⟨_, listed, _, reachedListed, rfl, rfl,
    (retains_actAll (.named "client") document .zero earlier [.call (.receive arrival)]).2 _ listed
      _ reachedListed rfl⟩

end Replica

end SharedDocument
