import SharedDocument.Word

/-! Settings of one client session. -/

namespace SharedDocument

/-- Operations in replayed history that carry this session's id are its own. A pending limit of
zero means that there is none. -/
structure SessionConfig where
  sessionId : String
  emitsLocalEvents : Bool
  maxPending : Word
  maxResyncGap : Word
  commandBuffer : Word
deriving DecidableEq, Repr

namespace SessionConfig

def defaults : SessionConfig :=
  ⟨"", true, ⟨1024, by decide⟩, ⟨10000, by decide⟩, ⟨64, by decide⟩⟩

def named (sessionId : String) : SessionConfig :=
  { defaults with sessionId := sessionId }

end SessionConfig

end SharedDocument
