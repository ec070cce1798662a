import SharedDocument.Document

/-! Operations carried out in place. An edit is a sequence of steps that read the arena, check, and
write to it; each step finds what the earlier ones wrote, and a step that fails leaves all of that
behind. A single edit is never undone. A group is carried out against a checkpoint, to which it
returns when an element fails. -/

namespace SharedDocument

structure Workspace where
  arena : Arena
  events : List ChangeEvent

abbrev Step (α : Type) : Type :=
  EStateM DocumentError Workspace α

namespace NodeData

def text? : NodeData → Option String
  | .string value => some value
  | _ => none

def items? : NodeData → Option (List NodeId)
  | .array children => some children
  | _ => none

def members? : NodeData → Option (List (String × NodeId))
  | .object children => some children
  | _ => none

end NodeData

namespace Step

variable {α : Type}

def current : Step Arena :=
  return (← get).arena

def write (change : Arena → Arena) : Step Unit :=
  modify fun workspace => { workspace with arena := change workspace.arena }

def report (event : ChangeEvent) : Step Unit :=
  modify fun workspace => { workspace with events := workspace.events ++ [event] }

def demand (condition : Prop) [Decidable condition] (fault : DocumentError) : Step Unit :=
  if condition then return () else throw fault

def demandNew (values : List DataValue) : Step Unit := do
  MonadExcept.ofExcept ((← current).checkNew values)

def data (id : NodeId) : Step NodeData := do
  match (← current).node? id with
  | some node => return node.data
  | none => throw (.nodeNotFound id)

def contents (kind : NodeKind) (view : NodeData → Option α) (id : NodeId) : Step α := do
  let data ← data id
  match view data with
  | some contents => return contents
  | none => throw (.typeMismatch id kind data.kind)

def text (id : NodeId) : Step String :=
  contents .string NodeData.text? id

def items (id : NodeId) : Step (List NodeId) :=
  contents .array NodeData.items? id

def members (id : NodeId) : Step (List (String × NodeId)) :=
  contents .object NodeData.members? id

def detach (site : Arena.Site) (element : PathElement) (id : NodeId) : Step Unit :=
  modify fun workspace =>
    let reached := workspace.arena.detach site.origin (site.path.child element) id
    ⟨reached.1, workspace.events ++ reached.2⟩

def detachAll (site : Arena.Site) : List (PathElement × NodeId) → Step Unit
  | [] => return ()
  | child :: rest => do
      detach site child.1 child.2
      detachAll site rest

def editText (site : Arena.Site) : TextEdit → Step Unit
  | .insert index value => do
      let stored ← text site.id
      demand (index.val ≤ stored.length) (.indexOutOfBounds site.id index.val stored.length)
      write (·.setData site.id (.string (String.ofList
        (stored.toList.take index.val ++ value.toList ++ stored.toList.drop index.val))))
      write (·.followReferences site.id (Position.afterInsert index value.length))
  | .remove index length => do
      let stored ← text site.id
      let fault : DocumentError :=
        .rangeOutOfBounds site.id index.val length.val stored.length
      match index.plus? length.val with
      | .error _ => throw fault
      | .ok finish => do
          demand (finish.val ≤ stored.length) fault
          write (·.setData site.id (.string (String.ofList
            (stored.toList.take index.val ++ stored.toList.drop finish.val))))
          write (·.followReferences site.id (Position.afterRemove index length.val))

def editArray (site : Arena.Site) : ArrayEdit → Step Unit
  | .insert index value => do
      let length := (← items site.id).length
      demand (index.val ≤ length) (.indexOutOfBounds site.id index.val length)
      demandNew [value]
      write (·.attach (some site.id) value)
      let children ← items site.id
      write (·.setData site.id (.array (children.insertIdx index.val value.id)))
      write (·.followReferences site.id (Position.afterInsert index 1))
  | .remove index => do
      let children ← items site.id
      match children[index.val]? with
      | none => throw (.indexOutOfBounds site.id index.val children.length)
      | some child => do
          write (·.setData site.id (.array (children.eraseIdx index.val)))
          detach site (.index index.val) child
          write (·.followReferences site.id (Position.afterRemove index 1))
  | .replace index value => do
      let length := (← items site.id).length
      demand (index.val < length) (.indexOutOfBounds site.id index.val length)
      demandNew [value]
      write (·.attach (some site.id) value)
      let children ← items site.id
      write (·.setData site.id (.array (children.set index.val value.id)))
      (children[index.val]?).forM (detach site (.index index.val))
  | .move source target => do
      let children ← items site.id
      match children[source.val]? with
      | none => throw (.indexOutOfBounds site.id source.val children.length)
      | some child => do
          demand (target.val < children.length)
            (.indexOutOfBounds site.id target.val children.length)
          write (·.setData site.id
            (.array ((children.eraseIdx source.val).insertIdx target.val child)))
          write (·.followReferences site.id (Position.afterMove source target))

def editProperty (site : Arena.Site) : PropertyEdit → Step Unit
  | .add key value => do
      demand (Keyed.find? key (← members site.id) = none) (.propertyExists site.id key)
      demandNew [value]
      write (·.attach (some site.id) value)
      let children ← members site.id
      write (·.setData site.id (.object (Keyed.insert key value.id children)))
  | .set key value => do
      match Keyed.find? key (← members site.id) with
      | none => throw (.propertyNotFound site.id key)
      | some child => do
          demandNew [value]
          detach site (.key key) child
          write (·.attach (some site.id) value)
          let children ← members site.id
          write (·.setData site.id (.object (Keyed.insert key value.id children)))
  | .remove key => do
      let children ← members site.id
      match Keyed.find? key children with
      | none => throw (.propertyNotFound site.id key)
      | some child => do
          write (·.setData site.id (.object (Keyed.erase key children)))
          detach site (.key key) child

/-- A value that is not of the kind of the node is not written. -/
def setContents (site : Arena.Site) : Contents → Step Unit
  | .string value => do
      let _ ← text site.id
      write (·.setData site.id (.string value))
      write (·.dropReferences site.id)
  | .array values => do
      let _ ← items site.id
      demandNew values
      let children ← items site.id
      write (·.setData site.id (.array []))
      detachAll site (NodeData.array children).children
      write (Arena.attachItems site.id values)
      let _ ← items site.id
      write (·.setData site.id (.array (values.map DataValue.id)))
      write (·.dropReferences site.id)
  | .object values => do
      let _ ← members site.id
      demandNew (values.map Prod.snd)
      let children ← members site.id
      write (·.setData site.id (.object []))
      detachAll site (NodeData.object children).children
      write (Arena.attachMembers site.id values)
      let _ ← members site.id
      write (·.setData site.id (.object (values.map fun entry => (entry.1, entry.2.id))))
      write (·.dropReferences site.id)
  | .number value => do
      if let .number _ ← data site.id then write (·.setData site.id (.number value))
  | .boolean value => do
      if let .boolean _ ← data site.id then write (·.setData site.id (.boolean value))
  | .date value => do
      if let .date _ ← data site.id then write (·.setData site.id (.date value))

def change (site : Arena.Site) : Change → Step Unit
  | .set contents => setContents site contents
  | .text edit => editText site edit
  | .array edit => editArray site edit
  | .property edit => editProperty site edit
  | .addNumber amount => do
      if let .number value ← data site.id then
        write (·.setData site.id (.number (value + amount)))

def edit (origin : Origin) (edit : Edit) : Step Unit := do
  let before ← current
  if before.isDetached edit.target then
    match origin with
    | .own => throw (.detached edit.target)
    | .peer _ => write (edit.change.createdIds.foldl Arena.addDetached)
  else
    let node ← MonadExcept.ofExcept (before.attached edit.target)
    demand (node.data.kind = edit.kind.nodeKind)
      (.typeMismatch edit.target edit.kind.nodeKind node.data.kind)
    let path ← MonadExcept.ofExcept (before.pathOf edit.target)
    change ⟨origin, edit.target, path⟩ edit.change
    report (origin.event edit.target path (.applied edit.kind) (before.json edit.target)
      ((← current).json edit.target))

def edits (origin : Origin) : List Edit → Step Unit
  | [] => return ()
  | first :: rest =>
      if first.isNoOp then edits origin rest
      else do
        edit origin first
        edits origin rest

/-- A failure returns the arena to where it stood before. -/
def undoing (steps : Step Unit) : Step Unit := do
  let checkpoint ← current
  tryCatch steps fun fault => do
    write fun _ => checkpoint
    throw fault

end Step

structure Application where
  document : Document
  deliveries : List Delivery
  answer : Except DocumentError Unit

namespace Document

def heard (document : Document) (origin : Origin) (events : List ChangeEvent) : List Delivery :=
  if document.receives origin then document.subscribers.receiveAll events else []

def steps (origin : Origin) : Operation → Step Unit
  | .single edit => Step.edit origin edit
  | .group elements => Step.undoing (Step.edits origin (Operation.group elements).edits)

def applyInPlace (document : Document) (origin : Origin) (operation : Operation) : Application :=
  if document.isClosed then ⟨document, [], .error .closed⟩
  else if operation.isNoOp then ⟨document, [], .ok ()⟩
  else
    match steps origin operation ⟨document.arena, []⟩ with
    | .error fault reached => ⟨{ document with arena := reached.arena }, [], .error fault⟩
    | .ok _ reached =>
        ⟨{ document with arena := reached.arena }, document.heard origin reached.events, .ok ()⟩

end Document

end SharedDocument
