import SharedDocument.Document.Editing

/-! Documents: an arena with a root, and the subscribers to its changes. An operation is applied as
a whole or not at all, and its events are delivered only after it has succeeded. A closed document
refuses every further change. -/

namespace SharedDocument

structure Document where
  root : NodeId
  arena : Arena
  subscribers : Subscribers
  emitsLocalEvents : Bool
  isClosed : Bool

structure NodeView where
  id : NodeId
  kind : NodeKind
  parent : Option NodeId
  path : Path
  value : Json

namespace Document

def ofValue (value : DataValue) : Except DocumentError Document := do
  Arena.empty.checkNew [value]
  return ⟨value.id, Arena.empty.attach none value, .none, true, false⟩

def setEmitsLocalEvents (document : Document) (emits : Bool) : Document :=
  { document with emitsLocalEvents := emits }

def ensureOpen (document : Document) : Except DocumentError Unit :=
  if document.isClosed then .error .closed else .ok ()

def receives (document : Document) : Origin → Bool
  | .own => document.emitsLocalEvents
  | .peer _ => true

def apply (document : Document) (origin : Origin) (operation : Operation) :
    Except DocumentError (Document × List Delivery) := do
  document.ensureOpen
  let (edited, events) ← document.arena.applyEdits origin operation.edits
  let deliveries := if document.receives origin then document.subscribers.receiveAll events else []
  return ({ document with arena := edited }, deliveries)

def markSuperseded (document : Document) (ids : List NodeId) : Document :=
  { document with arena := document.arena.markSuperseded ids }

def close (document : Document) : Document :=
  { document with
    isClosed := true
    subscribers := document.subscribers.clear
    arena := { document.arena with references := [] } }

def subscribe (document : Document) (filter : EventFilter) : Nat × Document :=
  let (subscription, subscribers) := document.subscribers.add filter
  (subscription, { document with subscribers := subscribers })

def unsubscribe (document : Document) (subscription : Nat) : Bool × Document :=
  let (found, subscribers) := document.subscribers.remove subscription
  (found, { document with subscribers := subscribers })

def pathOf (document : Document) (id : NodeId) : Except DocumentError Path :=
  document.arena.pathOf id

def node (document : Document) (id : NodeId) : Except DocumentError NodeView := do
  let node ← document.arena.attached id
  let path ← document.pathOf id
  return ⟨id, node.data.kind, node.parent, path, (document.arena.json id).getD .null⟩

def descend (document : Document) (path : Path) : NodeId → Path → Except DocumentError NodeId
  | id, [] => .ok id
  | id, element :: rest =>
      match document.arena.attached id with
      | .error fault => .error fault
      | .ok node =>
          match node.data.childAt? element with
          | none => .error (.pathNotFound path)
          | some child => document.descend path child rest

def nodeAt (document : Document) (path : Path) : Except DocumentError NodeView :=
  match document.descend path document.root path with
  | .error fault => .error fault
  | .ok id => document.node id

def json (document : Document) : Json :=
  (document.arena.json document.root).getD .null

def dataValue (document : Document) (id : NodeId) : Except DocumentError DataValue :=
  document.arena.dataValue id

def snapshot (document : Document) : Except DocumentError DataValue :=
  document.dataValue document.root

def referencesOf (document : Document) (id : NodeId) : ReferenceMap :=
  (Keyed.find? id document.arena.references).getD .empty

def setReferences (document : Document) (id : NodeId) (references : ReferenceMap) : Document :=
  { document with
    arena := { document.arena with
      references := Keyed.insert id references document.arena.references } }

def setReference (document : Document) (id : NodeId) (reference : Reference) :
    Except DocumentError Document := do
  document.ensureOpen
  discard (document.arena.attached id)
  let references ← (document.referencesOf id).put reference
  return document.setReferences id references

def removeReference (document : Document) (id : NodeId) (name : ReferenceName) :
    Option Reference × Document :=
  match (document.referencesOf id).get? name with
  | none => (none, document)
  | some reference => (some reference, document.setReferences id ((document.referencesOf id).remove name))

def removeSessionReferences (document : Document) (sessionId : String) : Document :=
  { document with
    arena := { document.arena with
      references := Keyed.mapValues (fun references => references.removeSession sessionId)
        document.arena.references } }

def summary (document : Document) : String :=
  "DocumentTree \x7b root: NodeId(" ++ Text.quoted document.root.text ++ "), nodes: " ++
    toString document.arena.size ++ ", detached: " ++ toString document.arena.detached.length ++
    ", listeners: " ++ toString document.subscribers.entries.length ++ ", closed: " ++
    toString document.isClosed ++ " \x7d"

end Document

end SharedDocument
