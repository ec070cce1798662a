import SharedDocument.Proofs.Session.Accounting
import SharedDocument.Session

/-! Chronicles of sessions. A chronicle has what is done with the replica and what is handed to the
transport, in the order in which it happens, and begins a new epoch where a resync is completed. -/

namespace SharedDocument

inductive Deed where
  | activity (activity : Activity)
  | handover (queued : QueuedOperation) (accepted : Bool)

def Deed.handover? : Deed → Option (QueuedOperation × Bool)
  | .activity _ => none
  | .handover queued accepted => some (queued, accepted)

namespace Replica

/-- A handover takes the replica offline if it is refused. -/
def undergo (replica : Replica) : Deed → Replica
  | .activity activity => replica.act activity
  | .handover _ true => replica
  | .handover _ false => replica.transportFailed

def undergoAll (replica : Replica) (deeds : List Deed) : Replica :=
  deeds.foldl undergo replica

theorem undergoAll_append (replica : Replica) (deeds later : List Deed) :
    replica.undergoAll (deeds ++ later) = (replica.undergoAll deeds).undergoAll later :=
  List.foldl_append

theorem undergoAll_activities (replica : Replica) (activities : List Activity) :
    replica.undergoAll (activities.map .activity) = replica.actAll activities := by
  induction activities generalizing replica with
  | nil => rfl
  | cons activity rest ih => exact ih (replica.act activity)

end Replica

structure Moment where
  before : Replica
  deed : Deed

namespace Moment

def after (moment : Moment) : Replica :=
  moment.before.undergo moment.deed

def isResync (moment : Moment) : Bool :=
  match moment.deed with
  | .activity (.call (.completeResync history)) => (moment.before.completeResync history).2.isOk
  | _ => false

end Moment

structure Chronicle where
  replica : Replica
  past : List (List Moment)
  current : List Moment

namespace Chronicle

def start (replica : Replica) : Chronicle :=
  ⟨replica, [], []⟩

def record (chronicle : Chronicle) (deed : Deed) : Chronicle :=
  let moment : Moment := ⟨chronicle.replica, deed⟩
  if moment.isResync then ⟨moment.after, chronicle.past ++ [chronicle.current], [moment]⟩
  else ⟨moment.after, chronicle.past, chronicle.current ++ [moment]⟩

def recordAll (chronicle : Chronicle) (deeds : List Deed) : Chronicle :=
  deeds.foldl record chronicle

def epochs (chronicle : Chronicle) : List (List Moment) :=
  chronicle.past ++ [chronicle.current]

theorem record_of_continues {chronicle : Chronicle} {deed : Deed}
    (continues : Moment.isResync ⟨chronicle.replica, deed⟩ = false) :
    chronicle.record deed = ⟨chronicle.replica.undergo deed, chronicle.past,
      chronicle.current ++ [⟨chronicle.replica, deed⟩]⟩ := by
  unfold record
  simp only [continues]
  rfl

theorem record_of_isResync {chronicle : Chronicle} {deed : Deed}
    (resyncs : Moment.isResync ⟨chronicle.replica, deed⟩ = true) :
    chronicle.record deed = ⟨chronicle.replica.undergo deed,
      chronicle.past ++ [chronicle.current], [⟨chronicle.replica, deed⟩]⟩ := by
  unfold record
  simp only [resyncs]
  rfl

@[simp] theorem replica_record (chronicle : Chronicle) (deed : Deed) :
    (chronicle.record deed).replica = chronicle.replica.undergo deed := by
  unfold record
  exact (apply_ite Chronicle.replica _ _ _).trans (ite_self _)

theorem replica_recordAll (chronicle : Chronicle) (deeds : List Deed) :
    (chronicle.recordAll deeds).replica = chronicle.replica.undergoAll deeds := by
  induction deeds generalizing chronicle with
  | nil => rfl
  | cons deed rest ih =>
      rw [recordAll, List.foldl_cons, ← recordAll, ih, replica_record]
      rfl

theorem deeds_record (chronicle : Chronicle) (deed : Deed) :
    (chronicle.record deed).epochs.flatten.map Moment.deed =
      chronicle.epochs.flatten.map Moment.deed ++ [deed] := by
  cases resyncs : Moment.isResync ⟨chronicle.replica, deed⟩ with
  | true => simp [record_of_isResync resyncs, epochs]
  | false => simp [record_of_continues resyncs, epochs]

theorem deeds_recordAll (chronicle : Chronicle) (deeds : List Deed) :
    (chronicle.recordAll deeds).epochs.flatten.map Moment.deed =
      chronicle.epochs.flatten.map Moment.deed ++ deeds := by
  induction deeds generalizing chronicle with
  | nil => exact (List.append_nil _).symm
  | cons deed rest ih =>
      rw [recordAll, List.foldl_cons, ← recordAll, ih, deeds_record, List.append_assoc]
      rfl

theorem recordAll_append (chronicle : Chronicle) (deeds later : List Deed) :
    chronicle.recordAll (deeds ++ later) = (chronicle.recordAll deeds).recordAll later :=
  List.foldl_append

end Chronicle

def Transport.recording {σ : Type} (transport : Transport σ) :
    Transport (σ × List (QueuedOperation × Bool)) where
  send network queued :=
    let (reached, answer) := transport.send network.1 queued
    ((reached, network.2 ++ [(queued, answer.isOk)]), answer)
  history network request :=
    let (reached, answer) := transport.history network.1 request
    ((reached, network.2), answer)

/-- What a command does with the replica before anything is sent, the queue that is sent then, and the
answer if all of it is accepted. -/
structure Plan (σ : Type) where
  activities : List Activity
  network : σ
  queue : List QueuedOperation
  answer : Except SessionError Reply

namespace Session

variable {σ : Type}

def plan (transport : Transport σ) (replica : Replica) (network : σ) : Command → Plan σ
  | .submit now operation =>
      let (reached, answer) := replica.submit now operation
      ⟨[.call (.submit now operation)], network,
        if reached.state.isLive then answer.toOption.toList else [],
        answer.map fun queued => .seqNo queued.seqNo⟩
  | .receive committed =>
      ⟨[.call (.receive committed)], network, [], (replica.receive committed).2.map fun _ => .done⟩
  | .acknowledge acknowledgment =>
      ⟨[.call (.acknowledge acknowledgment)], network, [],
        (replica.acknowledge acknowledgment).2.map fun _ => .done⟩
  | .reconnected serverVersion =>
      let (begun, answer) := replica.beginResync serverVersion
      match answer with
      | .error fault => ⟨[.call (.beginResync serverVersion)], network, [], .error fault⟩
      | .ok request =>
          let (network, history) := fetch transport network request
          let (reached, answer) := begun.completeResync history
          ⟨[.call (.beginResync serverVersion), .call (.completeResync history)], network,
            answer.toOption.getD [], answer.map fun _ => .version reached.version⟩
  | .subscribe filter =>
      ⟨[.subscribe filter], network, [], .ok (.subscription (replica.subscribe filter).1)⟩
  | .snapshot => ⟨[], network, [], .ok (.json replica.document.json)⟩
  | .status =>
      ⟨[], network, [], .ok (.status replica.state replica.version replica.pending.length)⟩
  | .shutdown => ⟨[.close], network, [], .ok .done⟩

def sendDeeds (transport : Transport σ) (network : σ) : List QueuedOperation → List Deed
  | [] => []
  | queued :: rest =>
      match transport.send network queued with
      | (network, .ok ()) => .handover queued true :: sendDeeds transport network rest
      | (_, .error _) => [.handover queued false]

def deeds (transport : Transport σ) (replica : Replica) (network : σ) (command : Command) :
    List Deed :=
  let plan := plan transport replica network command
  plan.activities.map .activity ++ sendDeeds transport plan.network plan.queue

def deedsOf (transport : Transport σ) (session : Session σ) (command : Command) : List Deed :=
  match session.condition with
  | .running =>
      deeds transport session.replica session.network command ++
        match (perform transport session.replica session.network command).2.2 with
        | .error (.overflow _) => []
        | _ => [.activity .drainEvents]
  | _ => []

def handleAll (transport : Transport σ) (session : Session σ) : List Command → Session σ
  | [] => session
  | command :: rest => (session.handle transport command).1.handleAll transport rest

def deedsAlong (transport : Transport σ) (session : Session σ) : List Command → List Deed
  | [] => []
  | command :: rest =>
      session.deedsOf transport command ++
        (session.handle transport command).1.deedsAlong transport rest

section

variable (transport : Transport σ) (replica : Replica) (network : σ)

theorem sendAll_granted {queue : List QueuedOperation}
    (granted : (sendAll transport replica network queue).2.2 = .ok ()) :
    (sendAll transport replica network queue).1 = replica := by
  induction queue generalizing network with
  | nil => rfl
  | cons queued rest ih =>
      rw [sendAll, sendOne] at granted ⊢
      cases answered : transport.send network queued with
      | mk reached answer =>
          cases answer with
          | ok _ =>
              simp only [answered] at granted ⊢
              exact ih reached granted
          | error _ =>
              simp only [answered] at granted
              cases granted

/-- A command is performed by what is planned and then sent. -/
theorem perform_eq_plan (command : Command) :
    perform transport replica network command =
      let plan := plan transport replica network command
      let (reached, network, sent) :=
        sendAll transport (replica.actAll plan.activities) plan.network plan.queue
      (reached, network, sent.bind fun _ => plan.answer) := by
  cases command with
  | submit now operation =>
      simp only [perform, submit, plan]
      rcases submitted : replica.submit now operation with ⟨reached, fault | queued⟩
      · simp only [Replica.actAll, Replica.act, Replica.perform, submitted]
        cases reached.state.isLive <;> rfl
      · simp only [Replica.actAll, Replica.act, Replica.perform, submitted]
        split
        · simp only [Except.toOption, Option.toList_some, sendAll]
          rcases sendOne transport reached network queued with ⟨last, network, fault | _⟩ <;> rfl
        · rfl
  | reconnected serverVersion =>
      simp only [perform, reconnect, plan]
      rcases begun : replica.beginResync serverVersion with ⟨waiting, fault | request⟩
      · simp only [Replica.actAll, Replica.act, Replica.perform, begun]
        rfl
      · rcases fetched : fetch transport network request with ⟨network, history⟩
        simp only [fetched]
        rcases completed : waiting.completeResync history with ⟨reached, fault | queue⟩
        · simp only [Replica.actAll, Replica.act, Replica.perform, begun, completed]
          rfl
        · simp only [Replica.actAll, Replica.act, Replica.perform, begun, completed,
            Except.toOption, Option.getD_some]
          have granted := @sendAll_granted _ transport reached network queue
          rcases sent : sendAll transport reached network queue with ⟨last, network, fault | _⟩
          · rfl
          · rw [sent] at granted
            rw [← granted rfl]
            rfl
  | _ => rfl

theorem undergoAll_sendDeeds (queue : List QueuedOperation) :
    replica.undergoAll (sendDeeds transport network queue) =
      (sendAll transport replica network queue).1 := by
  induction queue generalizing network with
  | nil => rfl
  | cons queued rest ih =>
      rw [sendDeeds, sendAll, sendOne]
      rcases transport.send network queued with ⟨reached, _ | _⟩
      · rfl
      · exact ih reached

theorem undergoAll_deeds (command : Command) :
    replica.undergoAll (deeds transport replica network command) =
      (perform transport replica network command).1 := by
  rw [perform_eq_plan, deeds, Replica.undergoAll_append, Replica.undergoAll_activities,
    undergoAll_sendDeeds]

theorem replica_handle (session : Session σ) (command : Command) :
    (session.handle transport command).1.replica =
      session.replica.undergoAll (session.deedsOf transport command) := by
  unfold handle deedsOf
  cases session.condition with
  | running =>
      rw [Replica.undergoAll_append, undergoAll_deeds]
      rcases perform transport session.replica session.network command with
        ⟨reached, network, fault | reply⟩
      · cases fault <;> rfl
      · rfl
  | stopped => rfl
  | failed => rfl

/-- The deeds account for all that becomes of the replica. -/
theorem replica_handleAll (session : Session σ) (commands : List Command) :
    (session.handleAll transport commands).replica =
      session.replica.undergoAll (session.deedsAlong transport commands) := by
  induction commands generalizing session with
  | nil => rfl
  | cons command rest ih =>
      rw [handleAll, ih, replica_handle, deedsAlong, Replica.undergoAll_append]

end

def withRecord (session : Session σ) (handed : List (QueuedOperation × Bool)) :
    Session (σ × List (QueuedOperation × Bool)) :=
  ⟨session.replica, (session.network, handed), session.condition, session.published⟩

section

variable (transport : Transport σ) (replica : Replica) (network : σ)
  (handed : List (QueuedOperation × Bool))

theorem sendAll_recording (queue : List QueuedOperation) :
    sendAll transport.recording replica (network, handed) queue =
      let (reached, last, sent) := sendAll transport replica network queue
      (reached, (last, handed ++ (sendDeeds transport network queue).filterMap Deed.handover?),
        sent) := by
  induction queue generalizing network handed with
  | nil => simp [sendAll, sendDeeds]
  | cons queued rest ih =>
      rcases answered : transport.send network queued with ⟨reached, reason | _⟩
      · simp [sendAll, sendOne, sendDeeds, Transport.recording, answered, Deed.handover?,
          Except.isOk, Except.toBool]
      · have recorded : transport.recording.send (network, handed) queued =
            ((reached, handed ++ [(queued, true)]), .ok ()) := by
          simp [Transport.recording, answered, Except.isOk, Except.toBool]
        simp only [sendAll, sendOne, sendDeeds, answered, recorded, ih]
        simp [Deed.handover?]

theorem fetch_recording (request : Option HistoryRequest) :
    fetch transport.recording (network, handed) request =
      (((fetch transport network request).1, handed), (fetch transport network request).2) := by
  cases request <;> rfl

theorem plan_recording (command : Command) :
    plan transport.recording replica (network, handed) command =
      let plan := plan transport replica network command
      ⟨plan.activities, (plan.network, handed), plan.queue, plan.answer⟩ := by
  cases command with
  | reconnected serverVersion =>
      simp only [plan]
      rcases replica.beginResync serverVersion with ⟨begun, fault | request⟩
      · rfl
      · simp only [fetch_recording]
  | _ => rfl

theorem perform_recording (command : Command) :
    perform transport.recording replica (network, handed) command =
      let (reached, last, answer) := perform transport replica network command
      (reached,
        (last, handed ++ (deeds transport replica network command).filterMap Deed.handover?),
        answer) := by
  have none_handed (activities : List Activity) :
      (activities.map Deed.activity).filterMap Deed.handover? = [] := by
    simp [List.filterMap_map, Function.comp_def, Deed.handover?]
  simp only [perform_eq_plan, plan_recording, deeds, sendAll_recording, List.filterMap_append,
    none_handed, List.nil_append]

theorem handle_recording (session : Session σ) (command : Command) :
    ((session.withRecord handed).handle transport.recording command).1 =
      (session.handle transport command).1.withRecord
        (handed ++ (session.deedsOf transport command).filterMap Deed.handover?) := by
  have performed := perform_recording transport session.replica session.network handed command
  unfold handle deedsOf
  rw [withRecord]
  cases condition : session.condition with
  | running =>
      simp only [performed, List.filterMap_append]
      rcases perform transport session.replica session.network command with
        ⟨reached, network, fault | reply⟩
      · cases fault <;> simp [withRecord, Deed.handover?]
      · simp [withRecord, Deed.handover?]
  | stopped => simp [withRecord, condition]
  | failed => simp [withRecord, condition]

/-- The handovers among the deeds are those that a transport sees. -/
theorem handleAll_recording (session : Session σ) (commands : List Command) :
    (session.withRecord handed).handleAll transport.recording commands =
      (session.handleAll transport commands).withRecord
        (handed ++ (session.deedsAlong transport commands).filterMap Deed.handover?) := by
  induction commands generalizing session handed with
  | nil => simp [handleAll, deedsAlong]
  | cons command rest ih =>
      rw [handleAll, handle_recording, ih, deedsAlong, List.filterMap_append, List.append_assoc]
      rfl

end

end Session

end SharedDocument
