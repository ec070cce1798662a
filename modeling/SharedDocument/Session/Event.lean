import SharedDocument.Session.State
import SharedDocument.Word

/-! Notifications of a session. -/

namespace SharedDocument

inductive SessionEvent where
  | stateChanged (previous next : SyncState)
  | remoteApplied (sessionId : String) (version : Word)
  | acknowledged (seqNo version : Word)
  | resynced (version : Word)
  | resyncError (message : String)
deriving DecidableEq, Repr

end SharedDocument
