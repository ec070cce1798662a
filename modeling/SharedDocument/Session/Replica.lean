import SharedDocument.Document
import SharedDocument.Session.Config
import SharedDocument.Session.Error
import SharedDocument.Session.Event
import SharedDocument.Session.Message

/-! Replicas: the document of one client, its queue of operations that the server has not
acknowledged, and the number of committed operations that it has incorporated. A local operation
is applied at once and queued. A remote one is transformed against the queue, entry by entry, and
then applied; the entries are replaced by their transformed forms. An acknowledgment takes the head
from the queue. Remote operations and acknowledgments are accepted in the order of versions only. -/

namespace SharedDocument

/-- The outbox holds session events, and the deliveries change events, that were not collected
yet. -/
structure Replica where
  config : SessionConfig
  document : Document
  pending : List QueuedOperation
  nextSeqNo : Word
  version : Word
  state : SyncState
  resyncTarget : Word
  outbox : List SessionEvent
  deliveries : List Delivery

abbrev Replica.Outcome (α : Type) : Type :=
  Replica × Except SessionError α

namespace Replica

def start (config : SessionConfig) (document : Document) (version : Word) : Replica where
  config := config
  document := document.setEmitsLocalEvents config.emitsLocalEvents
  pending := []
  nextSeqNo := .zero
  version := version
  state := .synchronized
  resyncTarget := version
  outbox := []
  deliveries := []

def emit (replica : Replica) (event : SessionEvent) : Replica :=
  { replica with outbox := replica.outbox ++ [event] }

def transition (replica : Replica) (next : SyncState) : Replica :=
  if replica.state = next then replica
  else { replica with state := next }.emit (.stateChanged replica.state next)

def invalid {α : Type} (replica : Replica) (action : Action) : Outcome α :=
  (replica, .error (.invalidState replica.state action))

def diverge {α : Type} (replica : Replica) (fault : SessionError) : Outcome α :=
  if replica.state = .unrecoverable then (replica, .error fault)
  else (replica.transition .diverged, .error fault)

def fail {α : Type} (replica : Replica) (fault : SessionError) : Outcome α :=
  (replica.transition .unrecoverable, .error fault)

def failResync {α : Type} (replica : Replica) (fault : SessionError) : Outcome α :=
  (replica.emit (.resyncError fault.message)).fail fault

def queueIsFull (replica : Replica) : Bool :=
  0 < replica.config.maxPending.val && replica.config.maxPending.val ≤ replica.pending.length

def submit (replica : Replica) (now : Instant) (operation : Operation) : Outcome QueuedOperation :=
  if replica.state = .unrecoverable then replica.invalid .submit
  else if replica.queueIsFull then
    (replica, .error (.pendingLimitExceeded replica.pending.length))
  else
    match replica.document.apply .own operation with
    | .error fault => (replica, .error (.document fault))
    | .ok (document, deliveries) =>
        let edited :=
          { replica with document := document, deliveries := replica.deliveries ++ deliveries }
        let queued : QueuedOperation :=
          ⟨replica.config.sessionId, replica.nextSeqNo, replica.version, now, operation⟩
        match replica.nextSeqNo.plus? 1 with
        | .error fault => (edited, .error (.overflow fault))
        | .ok next =>
            let enqueued := { edited with nextSeqNo := next, pending := replica.pending ++ [queued] }
            if replica.state = .synchronized then (enqueued.transition .pendingAck, .ok queued)
            else (enqueued, .ok queued)

/-- Takes the session offline after a queued operation could not be sent: later ones are held, lest
the server see them out of order. -/
def transportFailed (replica : Replica) : Replica :=
  if replica.state.isLive then replica.transition .disconnected else replica

/-- Takes the head from the queue. An acknowledgment without a sequence number is meant for it. -/
def takeHead (replica : Replica) (seqNo : Option Word) (version : Word) : Outcome Unit :=
  match replica.pending with
  | [] => replica.diverge (.unexpectedAck (seqNo.getD replica.nextSeqNo))
  | head :: rest =>
      if seqNo.getD head.seqNo ≠ head.seqNo then
        replica.diverge (.outOfOrderAck head.seqNo (seqNo.getD head.seqNo))
      else if version ≠ replica.version then
        replica.diverge (.versionMismatch replica.version version)
      else
        match replica.version.plus? 1 with
        -- the call does not return, and counts as not begun
        | .error fault => (replica, .error (.overflow fault))
        | .ok next =>
            let taken := { replica with pending := rest, version := next }.emit
              (.acknowledged head.seqNo version)
            if rest.isEmpty && taken.state = .pendingAck then (taken.transition .synchronized, .ok ())
            else (taken, .ok ())

def rebase (ancestry : Ancestry) (remote : Operation) :
    List QueuedOperation → Except TransformError (Operation × List QueuedOperation)
  | [] => .ok (remote, [])
  | entry :: rest =>
      match remote.transform ancestry entry.operation with
      | .error fault => .error fault
      | .ok pair =>
          (rebase ancestry pair.server rest).map fun result =>
            (result.1, { entry with operation := pair.client } :: result.2)

def applyRebased (replica : Replica) (committed : CommittedOperation) (remote : Operation)
    (pending : List QueuedOperation) : Outcome Unit :=
  let rebased :=
    { replica with
      pending := pending
      document := replica.document.markSuperseded remote.supersededIds }
  match rebased.document.apply (.peer committed.sessionId) remote with
  | .error fault => rebased.fail (.remoteApply committed.version fault)
  | .ok (document, deliveries) =>
      let edited :=
        { rebased with document := document, deliveries := rebased.deliveries ++ deliveries }
      match replica.version.plus? 1 with
      | .error fault => (edited, .error (.overflow fault))
      | .ok next =>
          ({ edited with version := next }.emit
            (.remoteApplied committed.sessionId committed.version), .ok ())

def incorporate (replica : Replica) (committed : CommittedOperation) : Outcome Unit :=
  if committed.version ≠ replica.version then
    replica.diverge (.versionMismatch replica.version committed.version)
  else if committed.sessionId = replica.config.sessionId then
    replica.takeHead none committed.version
  else
    match rebase replica.document.arena.isAncestor committed.operation replica.pending with
    | .error (.overflow fault) => (replica, .error (.overflow fault))
    | .error fault => replica.fail (.transform fault)
    | .ok (remote, pending) => replica.applyRebased committed remote pending

def receive (replica : Replica) (committed : CommittedOperation) : Outcome Unit :=
  if replica.state.isLive then replica.incorporate committed else replica.invalid .applyRemote

def acknowledge (replica : Replica) (acknowledgment : Acknowledgment) : Outcome Unit :=
  if replica.state.isLive then
    replica.takeHead (some acknowledgment.seqNo) acknowledgment.version
  else replica.invalid .acknowledge

/-- Starts a resync up to a version of the server. The answer is the history to fetch, if there is
any; in either case the resync has to be completed. -/
def beginResync (replica : Replica) (serverVersion : Word) : Outcome (Option HistoryRequest) :=
  if replica.state = .unrecoverable then replica.invalid .resync
  else if serverVersion.val < replica.version.val then
    replica.failResync
      (.resyncUnrecoverable replica.version serverVersion "server is behind the client")
  else
    let gap := serverVersion.val - replica.version.val
    if replica.config.maxResyncGap.val < gap then
      replica.failResync
        (.resyncUnrecoverable replica.version serverVersion
          ("gap of " ++ toString gap ++ " versions exceeds limit of " ++
            toString replica.config.maxResyncGap.val))
    else
      ({ replica with resyncTarget := serverVersion }.transition .resyncing,
        .ok (HistoryRequest.between replica.version serverVersion))

def failReplay (replica : Replica) (fault : SessionError) : Outcome Unit :=
  match fault with
  | .overflow _ => (replica, .error fault)
  | _ =>
      replica.failResync
        (if fault.requiresReload then fault
        else .resyncUnrecoverable replica.version replica.resyncTarget fault.message)

def replay (replica : Replica) : List CommittedOperation → Outcome Unit
  | [] => (replica, .ok ())
  | committed :: rest =>
      match replica.incorporate committed with
      | (reached, .ok ()) => reached.replay rest
      | (reached, .error fault) => reached.failReplay fault

def finishResync (replica : Replica) : Outcome (List QueuedOperation) :=
  if replica.version ≠ replica.resyncTarget then
    replica.failResync
      (.resyncUnrecoverable replica.version replica.resyncTarget "history ended early")
  else
    let current :=
      { replica with
        pending := replica.pending.map fun (entry : QueuedOperation) =>
          { entry with contextVersion := replica.version } }
    let live := current.transition (if current.pending.isEmpty then .synchronized else .pendingAck)
    (live.emit (.resynced live.version), .ok live.pending)

/-- Replays history. The answer is the queue to be sent again. After a transport error the history
may be asked for once more. -/
def completeResync (replica : Replica) (history : Except HistoryError (List CommittedOperation)) :
    Outcome (List QueuedOperation) :=
  if replica.state ≠ .resyncing then replica.invalid .completeResync
  else
    match history with
    | .error (.transport reason) =>
        (replica.emit (.resyncError reason), .error (.transport reason))
    | .error fault =>
        replica.failResync
          (.resyncUnrecoverable replica.version replica.resyncTarget fault.message)
    | .ok events =>
        match replica.replay events with
        | (reached, .error fault) => (reached, .error fault)
        | (reached, .ok ()) => reached.finishResync

def close (replica : Replica) : Replica :=
  { replica with document := replica.document.close }

def subscribe (replica : Replica) (filter : EventFilter) : Nat × Replica :=
  let (subscription, document) := replica.document.subscribe filter
  (subscription, { replica with document := document })

def unsubscribe (replica : Replica) (subscription : Nat) : Bool × Replica :=
  let (found, document) := replica.document.unsubscribe subscription
  (found, { replica with document := document })

def setReference (replica : Replica) (id : NodeId) (reference : Reference) : Outcome Unit :=
  match replica.document.setReference id reference with
  | .ok document => ({ replica with document := document }, .ok ())
  | .error fault => (replica, .error (.document fault))

def drainEvents (replica : Replica) : List SessionEvent × Replica :=
  (replica.outbox, { replica with outbox := [] })

def drainDeliveries (replica : Replica) : List Delivery × Replica :=
  (replica.deliveries, { replica with deliveries := [] })

end Replica

end SharedDocument
