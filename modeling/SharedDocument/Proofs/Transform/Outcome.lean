import SharedDocument.Transform.Outcome

/-! Convergence of a concurrent pair. Each side applies its own change first and then what has become
of the other's; both end in one state. -/

namespace SharedDocument

variable {α β σ τ : Type}

def Adapted.run (apply : α → σ → σ) (adapted : Adapted α) (state : σ) : σ :=
  if adapted.isNoOp then state else apply adapted.change state

@[simp] theorem Adapted.run_keep (apply : α → σ → σ) (change : α) (state : σ) :
    (Adapted.keep change).run apply state = apply change state := rfl

@[simp] theorem Adapted.run_drop (apply : α → σ → σ) (change : α) (state : σ) :
    (Adapted.drop change).run apply state = state := rfl

theorem Adapted.run_map {apply : α → σ → σ} {apply' : β → τ → τ} {wrap : α → β} {place : σ → τ}
    (applied : ∀ change state, apply' (wrap change) (place state) = place (apply change state))
    (adapted : Adapted α) (state : σ) :
    (adapted.map wrap).run apply' (place state) = place (adapted.run apply state) := by
  unfold run map
  dsimp only
  split
  · rfl
  · exact applied adapted.change state

namespace Outcome

structure Converges (Fits : α → σ → Prop) (apply : α → σ → σ) (state : σ) (server client : α)
    (outcome : Outcome α) : Prop where
  serverFits : outcome.server.isNoOp = false → Fits outcome.server.change (apply client state)
  clientFits : outcome.client.isNoOp = false → Fits outcome.client.change (apply server state)
  same : outcome.client.run apply (apply server state) =
    outcome.server.run apply (apply client state)

namespace Converges

variable {Fits : α → σ → Prop} {apply : α → σ → σ} {state : σ} {server client : α}

theorem swap {outcome : Outcome α} (converges : outcome.Converges Fits apply state server client) :
    Outcome.Converges Fits apply state client server outcome.swap :=
  ⟨converges.clientFits, converges.serverFits, converges.same.symm⟩

theorem keepBoth {newServer newClient : α} (serverFits : Fits newServer (apply client state))
    (clientFits : Fits newClient (apply server state))
    (same : apply newClient (apply server state) = apply newServer (apply client state)) :
    (Outcome.keepBoth newServer newClient).Converges Fits apply state server client :=
  ⟨fun _ => serverFits, fun _ => clientFits, same⟩

theorem keepServer {newServer newClient : α} (serverFits : Fits newServer (apply client state))
    (same : apply server state = apply newServer (apply client state)) :
    (Outcome.keepServer newServer newClient).Converges Fits apply state server client :=
  ⟨fun _ => serverFits, (fun live => by cases live), same⟩

theorem keepClient {newServer newClient : α} (clientFits : Fits newClient (apply server state))
    (same : apply newClient (apply server state) = apply client state) :
    (Outcome.keepClient newServer newClient).Converges Fits apply state server client :=
  ⟨(fun live => by cases live), fun _ => clientFits, same⟩

theorem dropBoth {newServer newClient : α} (same : apply server state = apply client state) :
    (Outcome.dropBoth newServer newClient).Converges Fits apply state server client :=
  ⟨(fun live => by cases live), (fun live => by cases live), same⟩

/-- Convergence carries over to states and changes that contain those of the pair. -/
theorem lift {Fits' : β → τ → Prop} {apply' : β → τ → τ} (wrap : α → β) (place : σ → τ)
    (fits : ∀ change state, Fits change state → Fits' (wrap change) (place state))
    (applied : ∀ change state, apply' (wrap change) (place state) = place (apply change state))
    {outcome : Outcome α} (converges : outcome.Converges Fits apply state server client) :
    (outcome.lift wrap).Converges Fits' apply' (place state) (wrap server) (wrap client) := by
  refine ⟨?_, ?_, ?_⟩
  · intro live
    rw [applied]
    exact fits _ _ (converges.serverFits live)
  · intro live
    rw [applied]
    exact fits _ _ (converges.clientFits live)
  · rw [applied, applied]
    exact (Adapted.run_map applied _ _).trans
      ((congrArg place converges.same).trans (Adapted.run_map applied _ _).symm)

end Converges

end Outcome

end SharedDocument
