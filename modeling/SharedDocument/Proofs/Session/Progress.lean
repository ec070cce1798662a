import SharedDocument.Proofs.Session.Resync

/-! Progress of a replica. A call that neither queues an operation nor completes a resync is made of a few
kinds of small steps. What each of them respects, such a call respects. -/

namespace SharedDocument

namespace Replica

inductive Progresses : Replica → Replica → Prop
  | refl {replica} : Progresses replica replica
  | trans {replica other last} : Progresses replica other → Progresses other last →
      Progresses replica last
  | work {replica} (document : Document) (deliveries : List Delivery)
      {pending : List QueuedOperation}
      (sameNumbers :
        pending.map QueuedOperation.seqNo = replica.pending.map QueuedOperation.seqNo) :
      Progresses replica
        { replica with document := document, deliveries := deliveries, pending := pending }
  | aim {replica} (target : Word) : Progresses replica { replica with resyncTarget := target }
  | report {replica} (message : String) : Progresses replica (replica.emit (.resyncError message))
  | leave {replica} {next : SyncState} (idle : next.isLive = false) :
      Progresses replica (replica.transition next)
  | take {replica} {head : QueuedOperation} {rest : List QueuedOperation} {next : Word}
      (queued : replica.pending = head :: rest) (counted : replica.version.plus? 1 = .ok next) :
      Progresses replica ({ replica with pending := rest, version := next }.emit
        (.acknowledged head.seqNo replica.version)).settle
  | advance {replica} {next : Word} (sessionId : String)
      (counted : replica.version.plus? 1 = .ok next) :
      Progresses replica
        ({ replica with version := next }.emit (.remoteApplied sessionId replica.version))

namespace Progresses

variable {α : Type} {replica : Replica}

theorem declines {outcome : Outcome α} (declines : replica.Declines outcome) :
    Progresses replica outcome.1 := by
  obtain ⟨fault, rfl | rfl | rfl⟩ := declines
  · exact .refl
  · unfold diverge
    split
    · exact .refl
    · exact .leave rfl
  · exact .leave rfl

theorem failResync (replica : Replica) (fault : SessionError) :
    Progresses replica (replica.failResync fault : Outcome α).1 :=
  .trans (.report fault.message) (.leave rfl)

theorem submit {now : Instant} {operation : Operation} {fault : SessionError}
    (refused : (replica.submit now operation).2 = .error fault) :
    Progresses replica (replica.submit now operation).1 := by
  obtain ⟨document, deliveries, ⟨_, same⟩ | ⟨next, queued, -, -, -, granted⟩⟩ :=
    replica.submit_spec now operation
  · rw [same]
    exact .work document deliveries rfl
  · rw [granted] at refused
    cases refused

theorem takeHead (replica : Replica) (seqNo : Option Word) (version : Word) :
    Progresses replica (replica.takeHead seqNo version).1 := by
  rcases replica.takeHead_spec seqNo version with
    refused | ⟨head, rest, next, queued, named, due, counted⟩
  · exact .declines refused
  · rw [takeHead_eq queued named due counted, due]
    exact .take queued counted

theorem incorporate (replica : Replica) (committed : CommittedOperation) :
    Progresses replica (replica.incorporate committed).1 := by
  rcases replica.incorporate_spec committed with
    refused | ⟨-, -, same⟩ | ⟨-, due, remote, pending, rebased, same⟩
  · exact .declines refused
  · rw [same]
    exact .takeHead replica none committed.version
  · rw [same]
    obtain ⟨document, deliveries, outcome⟩ := replica.applyRebased_spec committed remote pending
    have worked := Progresses.work document deliveries (seqNos_rebase rebased)
    rcases outcome with refused | ⟨next, counted, granted⟩
    · exact worked.trans (.declines refused)
    · rw [granted, due]
      exact worked.trans (.advance committed.sessionId counted)

theorem replay (replica : Replica) (history : List CommittedOperation) :
    Progresses replica (replica.replay history).1 := by
  induction history generalizing replica with
  | nil => exact .refl
  | cons committed rest ih =>
      have incorporated := Progresses.incorporate replica committed
      rw [Replica.replay]
      split
      · rename_i reached went
        rw [went] at incorporated
        exact incorporated.trans (ih reached)
      · rename_i reached fault stopped
        rw [stopped] at incorporated
        unfold failReplay
        split
        · exact incorporated
        · exact incorporated.trans (.failResync reached _)

theorem receive (replica : Replica) (committed : CommittedOperation) :
    Progresses replica (replica.receive committed).1 := by
  unfold Replica.receive
  split
  · exact .incorporate replica committed
  · exact .refl

theorem acknowledge (replica : Replica) (acknowledgment : Acknowledgment) :
    Progresses replica (replica.acknowledge acknowledgment).1 := by
  unfold Replica.acknowledge
  split
  · exact .takeHead replica _ _
  · exact .refl

theorem transportFailed (replica : Replica) : Progresses replica replica.transportFailed := by
  unfold Replica.transportFailed
  split
  · exact .leave rfl
  · exact .refl

theorem beginResync (replica : Replica) (serverVersion : Word) :
    Progresses replica (replica.beginResync serverVersion).1 := by
  unfold Replica.beginResync
  split
  · exact .refl
  · split
    · exact .failResync replica _
    · simp only
      split
      · exact .failResync replica _
      · exact .trans (.aim serverVersion) (.leave rfl)

theorem completeResync {history : Except HistoryError (List CommittedOperation)}
    {fault : SessionError} (refused : (replica.completeResync history).2 = .error fault) :
    Progresses replica (replica.completeResync history).1 := by
  unfold Replica.completeResync at refused ⊢
  split
  · exact .refl
  · split
    · exact .report _
    · exact .failResync replica _
    · rename_i resyncing _ events
      have replayed := Progresses.replay replica events
      split
      · rename_i reached fault stopped
        rw [stopped] at replayed
        exact replayed
      · rename_i reached went
        rw [went] at replayed
        rw [if_neg resyncing] at refused
        simp only [went] at refused
        unfold Replica.finishResync at refused ⊢
        split
        · exact replayed.trans (.failResync reached _)
        · rename_i caughtUp
          rw [if_neg caughtUp] at refused
          cases refused

end Progresses

end Replica

end SharedDocument
