import SharedDocument.Operation

/-! What becomes of two concurrent changes. -/

namespace SharedDocument

/-- The two sides of a concurrent pair: what the client applies after its own operation, and what
the server applies after its own. -/
structure Transformed (α : Type) where
  server : α
  client : α

namespace Transformed

def swap {α : Type} (pair : Transformed α) : Transformed α :=
  ⟨pair.client, pair.server⟩

def map {α β : Type} (transform : α → β) (pair : Transformed α) : Transformed β :=
  ⟨transform pair.server, transform pair.client⟩

end Transformed

structure Adapted (α : Type) where
  change : α
  isNoOp : Bool

namespace Adapted

def keep {α : Type} (change : α) : Adapted α :=
  ⟨change, false⟩

def drop {α : Type} (change : α) : Adapted α :=
  ⟨change, true⟩

def map {α β : Type} (transform : α → β) (adapted : Adapted α) : Adapted β :=
  ⟨transform adapted.change, adapted.isNoOp⟩

end Adapted

abbrev Outcome (α : Type) : Type :=
  Transformed (Adapted α)

namespace Outcome

variable {α β : Type}

def keepBoth (server client : α) : Outcome α :=
  ⟨.keep server, .keep client⟩

def dropBoth (server client : α) : Outcome α :=
  ⟨.drop server, .drop client⟩

def keepServer (server client : α) : Outcome α :=
  ⟨.keep server, .drop client⟩

def keepClient (server client : α) : Outcome α :=
  ⟨.drop server, .keep client⟩

/-- Two writes of one place: equal values need no further write, else the server's stays. -/
def writeConflict (equal : Bool) (server client : α) : Outcome α :=
  if equal then dropBoth server client else keepServer server client

def lift (transform : α → β) (outcome : Outcome α) : Outcome β :=
  outcome.map (Adapted.map transform)

end Outcome

end SharedDocument
