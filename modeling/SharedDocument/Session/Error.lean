import SharedDocument.Document.Error
import SharedDocument.Session.State
import SharedDocument.Transform

/-! Why a session refuses a call, and what must follow. -/

namespace SharedDocument

inductive HistoryError where
  | unavailable (first last : Word)
  | transport (reason : String)
deriving DecidableEq, Repr

def HistoryError.message : HistoryError → String
  | .unavailable first last =>
      "History " ++ toString first.val ++ "..=" ++ toString last.val ++ " is no longer available"
  | .transport reason => "Transport error: " ++ reason

inductive Action where
  | submit
  | applyRemote
  | acknowledge
  | resync
  | completeResync
deriving DecidableEq, Repr

def Action.text : Action → String
  | .submit => "submit a local operation"
  | .applyRemote => "apply a remote operation"
  | .acknowledge => "accept an acknowledgment"
  | .resync => "resync"
  | .completeResync => "complete a resync"

inductive SessionError where
  | document (fault : DocumentError)
  | transform (fault : TransformError)
  | remoteApply (version : Word) (fault : DocumentError)
  | outOfOrderAck (expected received : Word)
  | unexpectedAck (received : Word)
  | versionMismatch (expected received : Word)
  | resyncUnrecoverable (start finish : Word) (reason : String)
  | invalidState (state : SyncState) (action : Action)
  | pendingLimitExceeded (count : Nat)
  | transport (reason : String)
  | closed
  | overflow (fault : Overflow)
deriving DecidableEq, Repr

namespace SessionError

def message : SessionError → String
  | .document fault => "Tree error: " ++ fault.message
  | .transform fault => "Transform error: " ++ fault.message
  | .remoteApply version fault =>
      "Remote operation at version " ++ toString version.val ++ " could not be applied: " ++
        fault.message
  | .outOfOrderAck expected received =>
      "Out-of-order acknowledgment: expected seq " ++ toString expected.val ++ ", received " ++
        toString received.val
  | .unexpectedAck received =>
      "Acknowledgment for seq " ++ toString received.val ++ " with no pending operation"
  | .versionMismatch expected received =>
      "Version mismatch: expected " ++ toString expected.val ++ ", received " ++
        toString received.val
  | .resyncUnrecoverable start finish reason =>
      "Cannot resync from version " ++ toString start.val ++ " to " ++ toString finish.val ++ ": " ++
        reason
  | .invalidState state action => "Cannot " ++ action.text ++ " while " ++ state.text
  | .pendingLimitExceeded count => "Pending queue is full (" ++ toString count ++ " operations)"
  | .transport reason => "Transport error: " ++ reason
  | .closed => "Session closed"
  | .overflow fault => fault.message

def requiresResync : SessionError → Bool
  | .outOfOrderAck _ _ => true
  | .unexpectedAck _ => true
  | .versionMismatch _ _ => true
  | _ => false

def requiresReload : SessionError → Bool
  | .resyncUnrecoverable _ _ _ => true
  | .transform _ => true
  | .remoteApply _ _ => true
  | _ => false

def isFatal (fault : SessionError) : Bool :=
  fault.requiresResync || fault.requiresReload

end SessionError

end SharedDocument
