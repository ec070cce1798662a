import SharedDocument.Session.Replica
import SharedDocument.Session.Transport

/-! Sessions: one replica and the transport that it uses. Commands are handled one at a time and
each to its end. An operation is sent at once while the session is live; after a failed send later
ones are held until a resync sends the whole queue again. -/

namespace SharedDocument

inductive Command where
  | submit (now : Instant) (operation : Operation)
  | receive (committed : CommittedOperation)
  | acknowledge (acknowledgment : Acknowledgment)
  | reconnected (serverVersion : Word)
  | subscribe (filter : EventFilter)
  | snapshot
  | status
  | shutdown

inductive Reply where
  | done
  | seqNo (value : Word)
  | version (value : Word)
  | subscription (number : Nat)
  | json (value : Json)
  | status (state : SyncState) (version : Word) (pending : Nat)

/-- A session that has failed gives no reply to the command that it failed at. -/
inductive Condition where
  | running
  | stopped
  | failed
deriving DecidableEq, Repr

/-- The events published and not yet read are those for one observer. -/
structure Session (σ : Type) where
  replica : Replica
  network : σ
  condition : Condition
  published : List SessionEvent

/-- The events that an observer reads: if more were published than its buffer holds, the oldest are
lost and only their number is known. -/
structure Reading where
  lagged : Nat
  events : List SessionEvent

namespace Session

variable {σ : Type}

def start (replica : Replica) (network : σ) : Session σ :=
  ⟨replica, network, .running, []⟩

def sendOne (transport : Transport σ) (replica : Replica) (network : σ) (queued : QueuedOperation) :
    Replica × σ × Except SessionError Unit :=
  match transport.send network queued with
  | (network, .ok ()) => (replica, network, .ok ())
  | (network, .error reason) => (replica.transportFailed, network, .error (.transport reason))

def sendAll (transport : Transport σ) (replica : Replica) (network : σ) :
    List QueuedOperation → Replica × σ × Except SessionError Unit
  | [] => (replica, network, .ok ())
  | queued :: rest =>
      match sendOne transport replica network queued with
      | (replica, network, .ok ()) => sendAll transport replica network rest
      | (replica, network, .error fault) => (replica, network, .error fault)

def submit (transport : Transport σ) (replica : Replica) (network : σ) (now : Instant)
    (operation : Operation) : Replica × σ × Except SessionError Word :=
  match replica.submit now operation with
  | (replica, .error fault) => (replica, network, .error fault)
  | (replica, .ok queued) =>
      if replica.state.isLive then
        match sendOne transport replica network queued with
        | (replica, network, .ok ()) => (replica, network, .ok queued.seqNo)
        | (replica, network, .error fault) => (replica, network, .error fault)
      else (replica, network, .ok queued.seqNo)

def fetch (transport : Transport σ) (network : σ) :
    Option HistoryRequest → σ × Except HistoryError (List CommittedOperation)
  | none => (network, .ok [])
  | some request => transport.history network request

def reconnect (transport : Transport σ) (replica : Replica) (network : σ) (serverVersion : Word) :
    Replica × σ × Except SessionError Word :=
  match replica.beginResync serverVersion with
  | (replica, .error fault) => (replica, network, .error fault)
  | (replica, .ok request) =>
      let (network, history) := fetch transport network request
      match replica.completeResync history with
      | (replica, .error fault) => (replica, network, .error fault)
      | (replica, .ok queue) =>
          match sendAll transport replica network queue with
          | (replica, network, .ok ()) => (replica, network, .ok replica.version)
          | (replica, network, .error fault) => (replica, network, .error fault)

def perform (transport : Transport σ) (replica : Replica) (network : σ) :
    Command → Replica × σ × Except SessionError Reply
  | .submit now operation =>
      let (replica, network, result) := submit transport replica network now operation
      (replica, network, result.map .seqNo)
  | .receive committed =>
      let (replica, result) := replica.receive committed
      (replica, network, result.map fun _ => .done)
  | .acknowledge acknowledgment =>
      let (replica, result) := replica.acknowledge acknowledgment
      (replica, network, result.map fun _ => .done)
  | .reconnected serverVersion =>
      let (replica, network, result) := reconnect transport replica network serverVersion
      (replica, network, result.map .version)
  | .subscribe filter =>
      let (subscription, replica) := replica.subscribe filter
      (replica, network, .ok (.subscription subscription))
  | .snapshot => (replica, network, .ok (.json replica.document.json))
  | .status =>
      (replica, network, .ok (.status replica.state replica.version replica.pending.length))
  | .shutdown => (replica.close, network, .ok .done)

def conditionAfter : Command → Condition
  | .shutdown => .stopped
  | _ => .running

/-- Handles a command and publishes what the replica has to tell. An overflow ends the session
without a reply and without publishing. -/
def handle (transport : Transport σ) (session : Session σ) (command : Command) :
    Session σ × Except SessionError Reply :=
  match session.condition with
  | .running =>
      let (replica, network, result) := perform transport session.replica session.network command
      match result with
      | .error (.overflow _) =>
          ({ session with replica := replica, network := network, condition := .failed },
            .error .closed)
      | _ =>
          let (events, drained) := replica.drainEvents
          (⟨drained, network, conditionAfter command, session.published ++ events⟩, result)
  | _ => (session, .error .closed)

/-- The observer's buffer holds at least one event, and a power of two of them. -/
def bufferSize (session : Session σ) : Nat :=
  (max 1 session.replica.config.commandBuffer.val).nextPowerOfTwo

def read (session : Session σ) : Reading × Session σ :=
  let lost := session.published.length - session.bufferSize
  (⟨lost, session.published.drop lost⟩, { session with published := [] })

def isClean (session : Session σ) : Bool :=
  session.condition ≠ .failed

end Session

end SharedDocument
