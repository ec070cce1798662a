/-! The states of a session with respect to the server. -/

namespace SharedDocument

/-- `synchronized`: no operation awaits acknowledgment. `pendingAck`: at least one does.
`resyncing`: committed history is being replayed. `diverged`: the server's order was violated, and
only a resync is accepted. `disconnected`: an operation could not be sent, and later ones are held
for a resync. `unrecoverable`: the document must be loaded anew. -/
inductive SyncState where
  | synchronized
  | pendingAck
  | resyncing
  | diverged
  | disconnected
  | unrecoverable
deriving DecidableEq, Repr

namespace SyncState

def isLive : SyncState → Bool
  | .synchronized => true
  | .pendingAck => true
  | _ => false

def name : SyncState → String
  | .synchronized => "Synchronized"
  | .pendingAck => "PendingAck"
  | .resyncing => "Resyncing"
  | .diverged => "Diverged"
  | .disconnected => "Disconnected"
  | .unrecoverable => "Unrecoverable"

def text : SyncState → String
  | .synchronized => "synchronized"
  | .pendingAck => "pending-ack"
  | .resyncing => "resyncing"
  | .diverged => "diverged"
  | .disconnected => "disconnected"
  | .unrecoverable => "unrecoverable"

end SyncState

end SharedDocument
