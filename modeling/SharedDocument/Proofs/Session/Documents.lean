import SharedDocument.Proofs.Document.Atomicity
import SharedDocument.Proofs.Session.Accounting

/-! The documents of replicas. Whatever is done with a replica, its document is one that could have
arisen in use on its own. -/

namespace SharedDocument

def Call.Ordered : Call → Prop
  | .submit _ operation => operation.Ordered
  | .receive committed => committed.operation.Ordered
  | .completeResync (.ok history) => ∀ committed ∈ history, committed.operation.Ordered
  | _ => True

def Activity.Ordered : Activity → Prop
  | .call made => made.Ordered
  | _ => True

namespace Document

variable {document : Document}

theorem Arises.apply (arises : document.Arises) {origin : Origin} {operation : Operation}
    (ordered : operation.Ordered) {result : Document × List Delivery}
    (applied : document.apply origin operation = .ok result) : result.1.Arises := by
  have performed := @Arises.perform document arises (.apply origin operation) ordered
  rwa [Document.perform, applied] at performed

theorem Arises.markSuperseded (arises : document.Arises) (ids : List NodeId) :
    (document.markSuperseded ids).Arises :=
  @Arises.perform document arises (.markSuperseded ids) trivial

end Document

namespace Replica

variable {replica : Replica}

theorem arises_submit (arises : replica.document.Arises) (now : Instant) {operation : Operation}
    (ordered : operation.Ordered) : (replica.submit now operation).1.document.Arises := by
  unfold submit
  split
  · exact arises
  · split
    · exact arises
    · split
      · exact arises
      · rename_i document deliveries applied
        have edited := arises.apply ordered applied
        simp only
        split
        · exact edited
        · split
          · rw [(idles_transition _ _).document]
            exact edited
          · exact edited

theorem arises_takeHead (arises : replica.document.Arises) (seqNo : Option Word) (version : Word) :
    (replica.takeHead seqNo version).1.document.Arises := by
  rcases replica.takeHead_cases seqNo version with
    ⟨idles, -⟩ | ⟨fault, same, -⟩ | ⟨_, _, -, -, same, -⟩
  · rw [idles.document]
    exact arises
  · rw [same]
    exact arises
  · rw [same]
    exact arises

theorem arises_incorporate (arises : replica.document.Arises) {committed : CommittedOperation}
    (ordered : committed.operation.Ordered) :
    (replica.incorporate committed).1.document.Arises := by
  rcases replica.incorporate_spec committed with
    ⟨fault, same | same | same⟩ | ⟨-, -, same⟩ | ⟨-, -, remote, pending, rebased, same⟩
  · rw [same]
    exact arises
  · rw [same, (idles_diverge replica fault).document]
    exact arises
  · rw [same, (idles_fail replica fault).document]
    exact arises
  · rw [same]
    exact arises_takeHead arises none committed.version
  · rw [same]
    have remoteOrdered : remote.Ordered := by
      intro edit listed
      obtain ⟨older, olderListed, descends⟩ :=
        Edit.exists_ancestor (rebase_descends rebased).1 listed
      exact descends.change.ordered (ordered older olderListed)
    have marked := arises.markSuperseded remote.supersededIds
    unfold applyRebased
    simp only
    split
    · rw [(idles_fail _ _).document]
      exact marked
    · rename_i document deliveries applied
      have edited := marked.apply remoteOrdered applied
      split <;> exact edited

theorem arises_replay (arises : replica.document.Arises) {history : List CommittedOperation}
    (ordered : ∀ committed ∈ history, committed.operation.Ordered) :
    (replica.replay history).1.document.Arises := by
  induction history generalizing replica with
  | nil => exact arises
  | cons committed rest ih =>
      obtain ⟨first, later⟩ := List.forall_mem_cons.mp ordered
      have incorporated := arises_incorporate arises first
      rw [replay]
      split
      · rename_i reached went
        rw [went] at incorporated
        exact ih incorporated later
      · rename_i reached fault stopped
        rw [stopped] at incorporated
        rw [(idles_failReplay reached fault).document]
        exact incorporated

theorem arises_completeResync (arises : replica.document.Arises)
    {history : Except HistoryError (List CommittedOperation)}
    (ordered : (Call.completeResync history).Ordered) :
    (replica.completeResync history).1.document.Arises := by
  unfold completeResync
  split
  · exact arises
  · split
    · exact arises
    · rw [(idles_failResync replica _).document]
      exact arises
    · rename_i events
      have replayed := arises_replay arises ordered
      split
      · rename_i reached fault stopped
        rw [stopped] at replayed
        exact replayed
      · rename_i reached went
        rw [went] at replayed
        rcases reached.finishResync_cases with ⟨idles, -⟩ | ⟨-, same, -⟩
        · rw [idles.document]
          exact replayed
        · rw [same]
          exact replayed

theorem arises_perform (arises : replica.document.Arises) {call : Call} (ordered : call.Ordered) :
    (replica.perform call).1.document.Arises := by
  cases call with
  | submit now operation => exact arises_submit arises now ordered
  | receive committed =>
      simp only [perform, receive]
      split
      · exact arises_incorporate arises ordered
      · exact arises
  | acknowledge acknowledgment =>
      simp only [perform, acknowledge]
      split
      · exact arises_takeHead arises _ _
      · exact arises
  | transportFailed =>
      rw [perform, (idles_transportFailed replica).document]
      exact arises
  | beginResync serverVersion =>
      rw [perform, (idles_beginResync replica serverVersion).document]
      exact arises
  | completeResync history => exact arises_completeResync arises ordered

theorem arises_act (arises : replica.document.Arises) {activity : Activity}
    (ordered : activity.Ordered) : (replica.act activity).document.Arises := by
  cases activity with
  | call call => exact arises_perform arises ordered
  | close => exact @Document.Arises.perform _ arises .close trivial
  | subscribe filter => exact arises.subscribe filter
  | unsubscribe subscription => exact arises.unsubscribe subscription
  | setReference id reference =>
      have performed := @Document.Arises.perform _ arises (.setReference id reference) trivial
      rw [Document.perform] at performed
      rw [act, setReference]
      split
      · rename_i document set
        rwa [set] at performed
      · exact arises
  | drainEvents => exact arises
  | drainDeliveries => exact arises

theorem arises_actAll (arises : replica.document.Arises) {activities : List Activity}
    (ordered : ∀ activity ∈ activities, activity.Ordered) :
    (replica.actAll activities).document.Arises := by
  induction activities generalizing replica with
  | nil => exact arises
  | cons activity rest ih =>
      obtain ⟨first, later⟩ := List.forall_mem_cons.mp ordered
      exact ih (arises_act arises first) later

end Replica

end SharedDocument
