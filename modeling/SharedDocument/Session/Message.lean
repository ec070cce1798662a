import SharedDocument.Operation

/-! Messages between a client and the server. -/

namespace SharedDocument

/-- An operation that the server committed. The document is one version further after it. -/
structure CommittedOperation where
  sessionId : String
  version : Word
  timestamp : Instant
  operation : Operation

/-- An operation of this client that waits for the server. Sequence numbers count submissions from
zero; the context version is that of the document when the operation was made or last rebased. -/
structure QueuedOperation where
  clientId : String
  seqNo : Word
  contextVersion : Word
  timestamp : Instant
  operation : Operation

structure Acknowledgment where
  seqNo : Word
  version : Word
  timestamp : Instant
deriving DecidableEq, Repr

structure HistoryRequest where
  first : Word
  last : Word
deriving DecidableEq, Repr

namespace HistoryRequest

/-- The versions from `start` up to but not including `finish`, unless there are none. -/
def between (start finish : Word) : Option HistoryRequest :=
  if start.val < finish.val then some ⟨start, finish.minus 1⟩ else none

def count (request : HistoryRequest) : Except Overflow Word := do
  let distance ← request.last.minus? request.first.val
  distance.plus? 1

def covers (request : HistoryRequest) (version : Word) : Bool :=
  request.first.val ≤ version.val && version.val ≤ request.last.val

end HistoryRequest

end SharedDocument
