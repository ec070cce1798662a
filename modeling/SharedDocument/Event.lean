import SharedDocument.Operation
import SharedDocument.Path

/-! Change events and those who receive them. Every effective edit produces one event for its
target, after a `detached` event for each node that left the document with it. -/

namespace SharedDocument

inductive ChangeKind where
  | applied (kind : OperationKind)
  | detached
deriving DecidableEq, Repr

/-- The path is that of the node when the change happened; values are plain JSON. A change of
another session names that session. -/
structure ChangeEvent where
  nodeId : NodeId
  path : Path
  kind : ChangeKind
  oldValue : Option Json
  newValue : Option Json
  isLocal : Bool
  sessionId : Option String

inductive EventFilter where
  | all
  | node (id : NodeId)
  | subtree (path : Path)
  | kind (changeKind : ChangeKind)
  | remote
deriving DecidableEq, Repr

def EventFilter.accepts (filter : EventFilter) (event : ChangeEvent) : Bool :=
  match filter with
  | .all => true
  | .node id => event.nodeId == id
  | .subtree path => Path.startsWith event.path path
  | .kind changeKind => event.kind == changeKind
  | .remote => !event.isLocal

/-- Subscriptions in the order in which they were made. Numbers are never given out twice. -/
structure Subscribers where
  next : Nat
  entries : List (Nat × EventFilter)
deriving DecidableEq, Repr

structure Delivery where
  subscription : Nat
  event : ChangeEvent

namespace Subscribers

def none : Subscribers :=
  ⟨0, []⟩

def add (subscribers : Subscribers) (filter : EventFilter) : Nat × Subscribers :=
  (subscribers.next, ⟨subscribers.next + 1, subscribers.entries ++ [(subscribers.next, filter)]⟩)

def remove (subscribers : Subscribers) (subscription : Nat) : Bool × Subscribers :=
  (subscribers.entries.any fun entry => entry.1 == subscription,
    { subscribers with entries := subscribers.entries.filter fun entry => entry.1 != subscription })

def clear (subscribers : Subscribers) : Subscribers :=
  { subscribers with entries := [] }

def receive (subscribers : Subscribers) (event : ChangeEvent) : List Delivery :=
  (subscribers.entries.filter fun entry => entry.2.accepts event).map fun entry => ⟨entry.1, event⟩

def receiveAll (subscribers : Subscribers) (events : List ChangeEvent) : List Delivery :=
  events.flatMap subscribers.receive

end Subscribers

end SharedDocument
