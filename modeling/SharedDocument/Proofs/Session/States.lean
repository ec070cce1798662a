import SharedDocument.Proofs.Session.Accounting
import SharedDocument.Proofs.Session.Progress

/-! Changes of state. A session tells of every change of its state, and what it has told since the start
leads from the first state to the current one. -/

namespace SharedDocument

def SessionEvent.stateChange? : SessionEvent → Option (SyncState × SyncState)
  | .stateChanged previous next => some (previous, next)
  | _ => none

inductive SyncState.Leads : SyncState → List (SyncState × SyncState) → SyncState → Prop
  | stay {state} : Leads state [] state
  | change {previous next last rest} : previous ≠ next → Leads next rest last →
      Leads previous ((previous, next) :: rest) last

theorem SyncState.Leads.append {first middle last : SyncState}
    {earlier later : List (SyncState × SyncState)} (leads : first.Leads earlier middle)
    (leadsOn : middle.Leads later last) : first.Leads (earlier ++ later) last := by
  induction leads with
  | stay => exact leadsOn
  | change moved _ ih => exact .change moved (ih leadsOn)

namespace Replica

variable {replica other last : Replica}

def Moves (replica other : Replica) : Prop :=
  ∃ told, other.outbox = replica.outbox ++ told ∧
    replica.state.Leads (told.filterMap SessionEvent.stateChange?) other.state

namespace Moves

theorem of_still (outbox : other.outbox = replica.outbox) (state : other.state = replica.state) :
    Moves replica other :=
  ⟨[], outbox.trans (List.append_nil _).symm, state ▸ .stay⟩

theorem trans (first : Moves replica other) (second : Moves other last) : Moves replica last := by
  obtain ⟨told, sent, leads⟩ := first
  obtain ⟨later, sentLater, leadsOn⟩ := second
  refine ⟨told ++ later, by rw [sentLater, sent, List.append_assoc], ?_⟩
  rw [List.filterMap_append]
  exact leads.append leadsOn

theorem emit (replica : Replica) {event : SessionEvent} (quiet : event.stateChange? = none) :
    Moves replica (replica.emit event) := by
  refine ⟨[event], rfl, ?_⟩
  rw [List.filterMap_cons_none quiet]
  exact .stay

theorem transition (replica : Replica) (next : SyncState) :
    Moves replica (replica.transition next) := by
  rw [transition_eq]
  refine ⟨_, rfl, ?_⟩
  by_cases same : replica.state = next
  · rw [if_pos same, same]
    exact .stay
  · rw [if_neg same]
    exact .change same .stay

theorem settle (replica : Replica) : Moves replica replica.settle := by
  unfold Replica.settle
  split
  · exact .transition replica _
  · exact .of_still rfl rfl

theorem of_progresses (progresses : Progresses replica other) : Moves replica other := by
  induction progresses with
  | refl => exact .of_still rfl rfl
  | trans _ _ first second => exact first.trans second
  | work => exact .of_still rfl rfl
  | aim => exact .of_still rfl rfl
  | report => exact .emit _ rfl
  | leave => exact .transition _ _
  | take => exact (Moves.trans (.of_still rfl rfl) (.emit _ rfl)).trans (.settle _)
  | advance => exact .trans (.of_still rfl rfl) (.emit _ rfl)

theorem submit (replica : Replica) (now : Instant) (operation : Operation) :
    Moves replica (replica.submit now operation).1 := by
  obtain ⟨document, deliveries, ⟨fault, refused⟩ | ⟨next, queued, -, -, -, granted⟩⟩ :=
    replica.submit_spec now operation
  · rw [refused]
    exact .of_still rfl rfl
  · rw [granted]
    have enqueued : Moves replica { replica with
        document := document
        deliveries := deliveries
        nextSeqNo := next
        pending := replica.pending ++ [queued] } := .of_still rfl rfl
    split
    · exact enqueued.trans (.transition _ _)
    · exact enqueued

theorem completeResync (replica : Replica)
    (history : Except HistoryError (List CommittedOperation)) :
    Moves replica (replica.completeResync history).1 := by
  cases answer : (replica.completeResync history).2 with
  | error fault => exact .of_progresses (.completeResync answer)
  | ok queue =>
      obtain ⟨events, rfl, resyncing, replayed, caughtUp⟩ := completeResync_granted answer
      rw [completeResync_eq resyncing replayed, finishResync_eq caughtUp]
      have replays : Moves replica (replica.replay events).1 := .of_progresses (.replay replica events)
      have restamped : Moves (replica.replay events).1 { (replica.replay events).1 with
          pending := restamp (replica.replay events).1.version (replica.replay events).1.pending } :=
        .of_still rfl rfl
      exact ((replays.trans restamped).trans (.transition _ _)).trans (.emit _ rfl)

theorem perform (replica : Replica) (call : Call) : Moves replica (replica.perform call).1 := by
  cases call with
  | submit now operation => exact .submit replica now operation
  | receive committed => exact .of_progresses (.receive replica committed)
  | acknowledge acknowledgment => exact .of_progresses (.acknowledge replica acknowledgment)
  | transportFailed => exact .of_progresses (.transportFailed replica)
  | beginResync serverVersion => exact .of_progresses (.beginResync replica serverVersion)
  | completeResync history => exact .completeResync replica history

end Moves

/-- With what was handed out earlier, the events lead from the first state to the current one. -/
def Told (first : SyncState) (earlier : List SessionEvent) (replica : Replica) : Prop :=
  first.Leads ((earlier ++ replica.outbox).filterMap SessionEvent.stateChange?) replica.state

variable {first : SyncState} {earlier : List SessionEvent}

theorem Told.moves (told : Told first earlier replica) (moves : Moves replica other) : Told first earlier other := by
  obtain ⟨later, sent, leads⟩ := moves
  rw [Told, sent, ← List.append_assoc, List.filterMap_append]
  exact SyncState.Leads.append told leads

theorem Told.act (told : Told first earlier replica) (activity : Activity) :
    Told first (earlier ++ replica.handsOut activity) (replica.act activity) := by
  cases activity with
  | drainEvents =>
      -- what leaves the outbox is handed out
      have moved : earlier ++ replica.handsOut .drainEvents ++ (replica.act .drainEvents).outbox =
          earlier ++ replica.outbox := List.append_nil _
      rw [Told, moved]
      exact told
  | call call =>
      rw [handsOut, List.append_nil]
      · exact told.moves (.perform replica call)
      · exact nofun
  | setReference id reference =>
      rw [handsOut, List.append_nil, Replica.act, setReference]
      · split <;> exact told.moves (.of_still rfl rfl)
      · exact nofun
  | _ =>
      rw [handsOut, List.append_nil]
      · exact told.moves (.of_still rfl rfl)
      · exact nofun

theorem Told.actAll (told : Told first earlier replica) (activities : List Activity) :
    first.Leads ((earlier ++ replica.eventsAlong activities).filterMap SessionEvent.stateChange?)
      (replica.actAll activities).state := by
  induction activities generalizing replica earlier with
  | nil => exact told
  | cons activity rest ih =>
      rw [eventsAlong, Replica.actAll, ← List.append_assoc]
      exact ih (told.act activity)

end Replica

end SharedDocument
