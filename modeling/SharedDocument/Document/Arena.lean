import SharedDocument.Event
import SharedDocument.Reference
import SharedDocument.Transform

/-! The arena of a document: nodes addressed by id. Containers hold the ids of their children, and
each node names its parent. An id that left the arena, or that will never enter it, stays known as
detached. Walks along links are bounded by the number of nodes. -/

namespace SharedDocument

inductive NodeData where
  | object (children : List (String × NodeId))
  | array (children : List NodeId)
  | string (value : String)
  | number (value : Float)
  | boolean (value : Bool)
  | date (value : Instant)
  | null
deriving Inhabited, Repr

namespace NodeData

def kind : NodeData → NodeKind
  | .object _ => .object
  | .array _ => .array
  | .string _ => .string
  | .number _ => .number
  | .boolean _ => .boolean
  | .date _ => .date
  | .null => .null

def children : NodeData → List (PathElement × NodeId)
  | .object children => children.map fun entry => (.key entry.1, entry.2)
  | .array children => children.zipIdx.map fun entry => (.index entry.2, entry.1)
  | _ => []

def elementOf? (data : NodeData) (child : NodeId) : Option PathElement :=
  (data.children.find? fun entry => entry.2 == child).map Prod.fst

def childAt? : NodeData → PathElement → Option NodeId
  | .object children, .key name => Keyed.find? name children
  | .array children, .index position => children[position]?
  | _, _ => none

end NodeData

structure Node where
  id : NodeId
  parent : Option NodeId
  data : NodeData
deriving Inhabited, Repr

structure Arena where
  nodes : List (NodeId × Node)
  detached : List NodeId
  references : List (NodeId × ReferenceMap)

namespace Arena

def empty : Arena :=
  ⟨[], [], []⟩

def size (arena : Arena) : Nat :=
  arena.nodes.length

def node? (arena : Arena) (id : NodeId) : Option Node :=
  Keyed.find? id arena.nodes

def contains (arena : Arena) (id : NodeId) : Bool :=
  (arena.node? id).isSome

def isDetached (arena : Arena) (id : NodeId) : Bool :=
  arena.detached.contains id

def attached (arena : Arena) (id : NodeId) : Except DocumentError Node :=
  if arena.isDetached id then .error (.detached id)
  else
    match arena.node? id with
    | some node => .ok node
    | none => .error (.nodeNotFound id)

def parentOf (arena : Arena) (id : NodeId) : Option NodeId :=
  (arena.node? id).bind Node.parent

def isAncestor (arena : Arena) : Ancestry :=
  fun ancestor node => Ancestry.climb arena.parentOf ancestor arena.size node

def pathUp (arena : Arena) : Nat → Node → Path → Except DocumentError Path
  | 0, node, _ => .error (.nodeNotFound node.id)
  | steps + 1, node, below =>
      match node.parent with
      | none => .ok below
      | some parentId =>
          match arena.attached parentId with
          | .error fault => .error fault
          | .ok parent =>
              match parent.data.elementOf? node.id with
              | none => .error (.nodeNotFound node.id)
              | some element => arena.pathUp steps parent (element :: below)

def pathOf (arena : Arena) (id : NodeId) : Except DocumentError Path :=
  match arena.attached id with
  | .error fault => .error fault
  | .ok node => arena.pathUp arena.size node []

def jsonBelow (arena : Arena) : Nat → NodeId → Option Json
  | 0, _ => none
  | depth + 1, id =>
      (arena.node? id).map fun node =>
        match node.data with
        | .object children =>
            .object (children.filterMap fun entry =>
              (arena.jsonBelow depth entry.2).map fun value => (entry.1, value))
        | .array children => .array (children.filterMap (arena.jsonBelow depth))
        | .string value => .string value
        | .number value => Json.number value
        | .boolean value => .bool value
        | .date value => .string value.textInMillis
        | .null => .null

def json (arena : Arena) (id : NodeId) : Option Json :=
  arena.jsonBelow arena.size id

def valueBelow (arena : Arena) : Nat → NodeId → Except DocumentError DataValue
  | 0, id => .error (.nodeNotFound id)
  | depth + 1, id => do
      let node ← arena.attached id
      match node.data with
      | .object children =>
          let values ← children.mapM fun entry => do
            let value ← arena.valueBelow depth entry.2
            return (entry.1, value)
          return .object node.id values
      | .array children =>
          let values ← children.mapM (arena.valueBelow depth)
          return .array node.id values
      | .string value => return .string node.id value
      | .number value => return .number node.id value
      | .boolean value => return .boolean node.id value
      | .date value => return .date node.id value
      | .null => return .null node.id

def dataValue (arena : Arena) (id : NodeId) : Except DocumentError DataValue :=
  arena.valueBelow (arena.size + 1) id

def setNode (arena : Arena) (node : Node) : Arena :=
  { arena with nodes := Keyed.insert node.id node arena.nodes }

def setData (arena : Arena) (id : NodeId) (data : NodeData) : Arena :=
  match arena.node? id with
  | some node => arena.setNode { node with data := data }
  | none => arena

def addDetached (arena : Arena) (id : NodeId) : Arena :=
  if arena.isDetached id then arena else { arena with detached := id :: arena.detached }

/-- Ids that will never be created; those of attached nodes are left alone. -/
def markSuperseded (arena : Arena) (ids : List NodeId) : Arena :=
  ids.foldl (fun marked id => if marked.contains id then marked else marked.addDetached id) arena

def isKnown (arena : Arena) (id : NodeId) : Bool :=
  arena.contains id || arena.isDetached id

def duplicate? (arena : Arena) (earlier : List NodeId) : List NodeId → Option NodeId
  | [] => none
  | id :: rest =>
      if arena.isKnown id || earlier.contains id then some id
      else arena.duplicate? (id :: earlier) rest

def checkNew (arena : Arena) (values : List DataValue) : Except DocumentError Unit :=
  match arena.duplicate? [] (values.flatMap DataValue.nodeIds) with
  | some id => .error (.duplicateNodeId id)
  | none => .ok ()

mutual

def attach (parent : Option NodeId) : DataValue → Arena → Arena
  | .object id children, arena =>
      (attachMembers id children arena).setNode
        ⟨id, parent, .object (children.map fun entry => (entry.1, entry.2.id))⟩
  | .array id children, arena =>
      (attachItems id children arena).setNode ⟨id, parent, .array (children.map DataValue.id)⟩
  | .string id value, arena => arena.setNode ⟨id, parent, .string value⟩
  | .number id value, arena => arena.setNode ⟨id, parent, .number value⟩
  | .boolean id value, arena => arena.setNode ⟨id, parent, .boolean value⟩
  | .date id value, arena => arena.setNode ⟨id, parent, .date value⟩
  | .null id, arena => arena.setNode ⟨id, parent, .null⟩

def attachItems (parent : NodeId) : List DataValue → Arena → Arena
  | [], arena => arena
  | child :: rest, arena => attachItems parent rest (attach (some parent) child arena)

def attachMembers (parent : NodeId) : List (String × DataValue) → Arena → Arena
  | [], arena => arena
  | (_, child) :: rest, arena => attachMembers parent rest (attach (some parent) child arena)

end

def dropReferences (arena : Arena) (id : NodeId) : Arena :=
  { arena with references := Keyed.erase id arena.references }

def followReferences (arena : Arena) (id : NodeId) (follow : Word → Word) : Arena :=
  match Keyed.find? id arena.references with
  | some references =>
      { arena with references := Keyed.insert id (references.map follow) arena.references }
  | none => arena

end Arena

end SharedDocument
