import SharedDocument.Proofs.Document.Convergence
import SharedDocument.Proofs.Session.Rebase

/-! What the calls of a session do to the document and the queue. Most of them leave both alone and
change the state at most; the others queue an operation, take the head of the queue, or apply a
remote operation. -/

namespace SharedDocument

inductive Call where
  | submit (now : Instant) (operation : Operation)
  | receive (committed : CommittedOperation)
  | acknowledge (acknowledgment : Acknowledgment)
  | transportFailed
  | beginResync (serverVersion : Word)
  | completeResync (history : Except HistoryError (List CommittedOperation))

namespace Replica

def fault? {α : Type} (outcome : Outcome α) : Option SessionError :=
  match outcome.2 with
  | .ok _ => none
  | .error fault => some fault

def perform (replica : Replica) : Call → Replica × Option SessionError
  | .submit now operation =>
      ((replica.submit now operation).1, fault? (replica.submit now operation))
  | .receive committed => ((replica.receive committed).1, fault? (replica.receive committed))
  | .acknowledge acknowledgment =>
      ((replica.acknowledge acknowledgment).1, fault? (replica.acknowledge acknowledgment))
  | .transportFailed => (replica.transportFailed, none)
  | .beginResync serverVersion =>
      ((replica.beginResync serverVersion).1, fault? (replica.beginResync serverVersion))
  | .completeResync history =>
      ((replica.completeResync history).1, fault? (replica.completeResync history))

def faults (replica : Replica) : List Call → List SessionError
  | [] => []
  | call :: rest => (replica.perform call).2.toList ++ (replica.perform call).1.faults rest

theorem fault?_eq_some_iff {α : Type} {outcome : Outcome α} {fault : SessionError} :
    fault? outcome = some fault ↔ outcome.2 = .error fault := by
  unfold fault?
  cases outcome.2 <;> simp

end Replica

/-- A remote operation could not be transformed or applied, so that the document is lost. -/
def SessionError.FailsRemote : SessionError → Prop
  | .transform _ => True
  | .remoteApply _ _ => True
  | _ => False

def SessionError.IsHarmless (fault : SessionError) : Prop :=
  ¬ fault.FailsRemote ∧ ∀ overflow, fault ≠ .overflow overflow

namespace Replica

variable {replica other last : Replica}

structure Keeps (replica other : Replica) : Prop where
  document : other.document = replica.document
  pending : other.pending = replica.pending

structure Idles (replica other : Replica) : Prop extends Keeps replica other where
  version : other.version = replica.version
  nextSeqNo : other.nextSeqNo = replica.nextSeqNo

theorem Idles.refl (replica : Replica) : Idles replica replica :=
  ⟨⟨rfl, rfl⟩, rfl, rfl⟩

theorem Idles.trans (first : Idles replica other) (second : Idles other last) : Idles replica last :=
  ⟨⟨second.document.trans first.document, second.pending.trans first.pending⟩,
    second.version.trans first.version, second.nextSeqNo.trans first.nextSeqNo⟩

theorem idles_transition (replica : Replica) (next : SyncState) :
    Idles replica (replica.transition next) := by
  unfold transition
  split <;> exact ⟨⟨rfl, rfl⟩, rfl, rfl⟩

theorem idles_diverge {α : Type} (replica : Replica) (fault : SessionError) :
    Idles replica (replica.diverge fault : Outcome α).1 := by
  unfold diverge
  split
  · exact .refl replica
  · exact idles_transition replica _

theorem idles_fail {α : Type} (replica : Replica) (fault : SessionError) :
    Idles replica (replica.fail fault : Outcome α).1 :=
  idles_transition replica _

theorem idles_failResync {α : Type} (replica : Replica) (fault : SessionError) :
    Idles replica (replica.failResync fault : Outcome α).1 := by
  have emitted : Idles replica (replica.emit (.resyncError fault.message)) := ⟨⟨rfl, rfl⟩, rfl, rfl⟩
  exact emitted.trans (idles_fail _ fault)

theorem idles_transportFailed (replica : Replica) : Idles replica replica.transportFailed := by
  unfold transportFailed
  split
  · exact idles_transition replica _
  · exact .refl replica

theorem idles_beginResync (replica : Replica) (serverVersion : Word) :
    Idles replica (replica.beginResync serverVersion).1 := by
  unfold beginResync
  split
  · exact .refl replica
  · split
    · exact idles_failResync replica _
    · simp only
      split
      · exact idles_failResync replica _
      · have aimed : Idles replica { replica with resyncTarget := serverVersion } :=
          ⟨⟨rfl, rfl⟩, rfl, rfl⟩
        exact aimed.trans (idles_transition _ _)

theorem idles_failReplay (replica : Replica) (fault : SessionError) :
    Idles replica (replica.failReplay fault).1 := by
  unfold failReplay
  split
  · exact .refl replica
  · exact idles_failResync replica _

/-- A call that leaves the range of words does not return. -/
def Returns {α : Type} (outcome : Outcome α) : Prop :=
  ∀ fault, outcome.2 ≠ .error (.overflow fault)

def Refuses {α : Type} (replica : Replica) (outcome : Outcome α) : Prop :=
  Idles replica outcome.1 ∧ ∃ fault, outcome.2 = .error fault ∧ fault.IsHarmless

theorem Refuses.isOk {α : Type} {outcome : Outcome α} (refuses : Refuses replica outcome) :
    outcome.2.isOk = false := by
  obtain ⟨-, fault, fails, -⟩ := refuses
  rw [fails]
  rfl

theorem refuses_invalid {α : Type} (replica : Replica) (action : Action) :
    Refuses replica (replica.invalid action : Outcome α) :=
  ⟨.refl replica, _, rfl, id, nofun⟩

theorem refuses_diverge {α : Type} (replica : Replica) {fault : SessionError}
    (harmless : fault.IsHarmless) : Refuses replica (replica.diverge fault : Outcome α) := by
  refine ⟨idles_diverge replica fault, fault, ?_, harmless⟩
  unfold diverge
  split <;> rfl

theorem refuses_failResync {α : Type} (replica : Replica) {fault : SessionError}
    (harmless : fault.IsHarmless) : Refuses replica (replica.failResync fault : Outcome α) :=
  ⟨idles_failResync replica fault, fault, rfl, harmless⟩

theorem refuses_failReplay (replica : Replica) {fault : SessionError} (harmless : fault.IsHarmless) :
    Refuses replica (replica.failReplay fault) := by
  unfold failReplay
  split
  · exact absurd rfl (harmless.2 _)
  · refine refuses_failResync replica ?_
    split
    · exact harmless
    · exact ⟨id, nofun⟩

theorem submit_cases (replica : Replica) (now : Instant) (operation : Operation) :
    Refuses replica (replica.submit now operation) ∨
      (∃ fault, (replica.submit now operation).2 = .error (.overflow fault) ∧
        0xFFFFFFFFFFFFFFFF ≤ replica.nextSeqNo.val) ∨
      ∃ result queued, replica.document.apply .own operation = .ok result ∧
        (replica.submit now operation).2 = .ok queued ∧
        (replica.submit now operation).1.document = result.1 ∧
        (replica.submit now operation).1.pending = replica.pending ++ [queued] ∧
        queued.operation = operation ∧
        (replica.submit now operation).1.version = replica.version ∧
        (replica.submit now operation).1.nextSeqNo.val = replica.nextSeqNo.val + 1 := by
  unfold submit
  split
  · exact Or.inl (refuses_invalid replica .submit)
  · split
    · exact Or.inl ⟨.refl replica, _, rfl, id, nofun⟩
    · split
      · exact Or.inl ⟨.refl replica, _, rfl, id, nofun⟩
      · rename_i document deliveries applied
        simp only
        split
        · rename_i fault counted
          have exhausted := (Word.plus?_eq_error_iff _ _ _).mp counted
          exact Or.inr (Or.inl ⟨fault, rfl, by omega⟩)
        · rename_i next counted
          have advanced := (Word.plus?_eq_ok_iff _ _ _).mp counted
          refine Or.inr (Or.inr ⟨_, ⟨replica.config.sessionId, replica.nextSeqNo, replica.version, now,
            operation⟩, applied, ?_⟩)
          split
          · have idles := fun enqueued => idles_transition enqueued .pendingAck
            exact ⟨rfl, (idles _).document, (idles _).pending, rfl, (idles _).version,
              (congrArg Word.val (idles _).nextSeqNo).trans advanced⟩
          · exact ⟨rfl, rfl, rfl, rfl, rfl, advanced⟩

theorem takeHead_cases (replica : Replica) (seqNo : Option Word) (version : Word) :
    Refuses replica (replica.takeHead seqNo version) ∨
      (∃ fault, replica.takeHead seqNo version = (replica, .error (.overflow fault)) ∧
        0xFFFFFFFFFFFFFFFF ≤ replica.version.val) ∨
      ∃ head rest, replica.pending = head :: rest ∧
        (replica.takeHead seqNo version).2 = .ok () ∧
        (replica.takeHead seqNo version).1.document = replica.document ∧
        (replica.takeHead seqNo version).1.pending = rest ∧
        (replica.takeHead seqNo version).1.version.val = replica.version.val + 1 ∧
        (replica.takeHead seqNo version).1.nextSeqNo = replica.nextSeqNo := by
  unfold takeHead
  split
  · exact Or.inl (refuses_diverge replica ⟨id, nofun⟩)
  · rename_i head rest queue
    split
    · exact Or.inl (refuses_diverge replica ⟨id, nofun⟩)
    · split
      · exact Or.inl (refuses_diverge replica ⟨id, nofun⟩)
      · split
        · rename_i fault counted
          have exhausted := (Word.plus?_eq_error_iff _ _ _).mp counted
          exact Or.inr (Or.inl ⟨fault, rfl, by omega⟩)
        · rename_i next counted
          have advanced := (Word.plus?_eq_ok_iff _ _ _).mp counted
          refine Or.inr (Or.inr ⟨head, rest, queue, ?_⟩)
          simp only
          split
          · have idles := fun taken => idles_transition taken .synchronized
            exact ⟨rfl, (idles _).document, (idles _).pending,
              (congrArg Word.val (idles _).version).trans advanced, (idles _).nextSeqNo⟩
          · exact ⟨rfl, rfl, rfl, advanced, rfl⟩

theorem finishResync_cases (replica : Replica) :
    Refuses replica replica.finishResync ∨ (∃ queue, replica.finishResync.2 = .ok queue) ∧
      replica.finishResync.1.document = replica.document ∧
      queuedEdits replica.finishResync.1.pending = queuedEdits replica.pending ∧
      replica.finishResync.1.version = replica.version ∧
      replica.finishResync.1.nextSeqNo = replica.nextSeqNo := by
  unfold finishResync
  split
  · exact Or.inl (refuses_failResync replica ⟨id, nofun⟩)
  · have idles := fun live => idles_transition { replica with
      pending := replica.pending.map fun (entry : QueuedOperation) =>
        { entry with contextVersion := replica.version } } live
    refine Or.inr ⟨⟨_, rfl⟩, (idles _).document, ?_, (idles _).version, (idles _).nextSeqNo⟩
    exact (congrArg queuedEdits (idles _).pending).trans
      (queuedEdits_rebased replica.pending replica.version)

theorem applyRebased_cases {replica : Replica} {committed : CommittedOperation} {remote : Operation}
    {pending : List QueuedOperation} {reached : Document}
    (incorporated : replica.document.incorporate committed.sessionId remote = .ok reached) :
    (∃ fault, (replica.applyRebased committed remote pending).2 = .error (.overflow fault) ∧
        0xFFFFFFFFFFFFFFFF ≤ replica.version.val) ∨
      (replica.applyRebased committed remote pending).2 = .ok () ∧
        (replica.applyRebased committed remote pending).1.document = reached ∧
        (replica.applyRebased committed remote pending).1.pending = pending ∧
        (replica.applyRebased committed remote pending).1.version.val = replica.version.val + 1 ∧
        (replica.applyRebased committed remote pending).1.nextSeqNo = replica.nextSeqNo := by
  obtain ⟨⟨document, deliveries⟩, applied, same⟩ := Fallible.bind_eq_ok_iff.mp incorporated
  cases same
  unfold applyRebased
  simp only [applied]
  split
  · rename_i fault counted
    have exhausted := (Word.plus?_eq_error_iff _ _ _).mp counted
    exact Or.inl ⟨fault, rfl, by omega⟩
  · rename_i next counted
    exact Or.inr ⟨rfl, rfl, rfl, (Word.plus?_eq_ok_iff _ _ _).mp counted, rfl⟩

end Replica

end SharedDocument
