import SharedDocument.Document.Arena

/-! Applying edits to an arena. An edit is checked in full before it takes effect, so a refused one
leaves nothing behind. -/

namespace SharedDocument

inductive Origin where
  | own
  | peer (sessionId : String)
deriving DecidableEq, Repr

def Origin.event (origin : Origin) (nodeId : NodeId) (path : Path) (kind : ChangeKind)
    (oldValue newValue : Option Json) : ChangeEvent :=
  match origin with
  | .own => ⟨nodeId, path, kind, oldValue, newValue, true, none⟩
  | .peer sessionId => ⟨nodeId, path, kind, oldValue, newValue, false, some sessionId⟩

namespace Arena

def forget (arena : Arena) (id : NodeId) : Arena :=
  ({ arena with nodes := Keyed.erase id arena.nodes }.dropReferences id).addDetached id

/-- Detaches a node and everything below it, and reports children before their parent. -/
def detachBelow (origin : Origin) : Nat → Path → NodeId → Arena → Arena × List ChangeEvent
  | 0, _, _, arena => (arena, [])
  | depth + 1, path, id, arena =>
      match arena.node? id with
      | none => (arena, [])
      | some node =>
          let oldValue := arena.json id
          let below := node.data.children.foldl
            (fun (reached : Arena × List ChangeEvent) child =>
              let next := detachBelow origin depth (path.child child.1) child.2 reached.1
              (next.1, reached.2 ++ next.2))
            (arena.forget id, [])
          (below.1, below.2 ++ [origin.event id path .detached oldValue none])

def detach (arena : Arena) (origin : Origin) (path : Path) (id : NodeId) :
    Arena × List ChangeEvent :=
  detachBelow origin arena.size path id arena

def detachChildren (arena : Arena) (origin : Origin) (path : Path) (data : NodeData) :
    Arena × List ChangeEvent :=
  data.children.foldl
    (fun (reached : Arena × List ChangeEvent) child =>
      let next := reached.1.detach origin (path.child child.1) child.2
      (next.1, reached.2 ++ next.2))
    (arena, [])

structure Site where
  origin : Origin
  id : NodeId
  path : Path

def editText (arena : Arena) (site : Site) (text : String) :
    TextEdit → Except DocumentError (Arena × List ChangeEvent)
  | .insert index value =>
      if text.length < index.val then
        .error (.indexOutOfBounds site.id index.val text.length)
      else
        let edited := String.ofList
          (text.toList.take index.val ++ value.toList ++ text.toList.drop index.val)
        .ok ((arena.setData site.id (.string edited)).followReferences site.id
          (Position.afterInsert index value.length), [])
  | .remove index length =>
      match index.plus? length.val with
      | .error _ => .error (.rangeOutOfBounds site.id index.val length.val text.length)
      | .ok finish =>
          if text.length < finish.val then
            .error (.rangeOutOfBounds site.id index.val length.val text.length)
          else
            let edited := String.ofList
              (text.toList.take index.val ++ text.toList.drop finish.val)
            .ok ((arena.setData site.id (.string edited)).followReferences site.id
              (Position.afterRemove index length.val), [])

def editArray (arena : Arena) (site : Site) (children : List NodeId) :
    ArrayEdit → Except DocumentError (Arena × List ChangeEvent)
  | .insert index value =>
      if children.length < index.val then
        .error (.indexOutOfBounds site.id index.val children.length)
      else do
        arena.checkNew [value]
        let edited := (arena.attach (some site.id) value).setData site.id
          (.array (children.insertIdx index.val value.id))
        return (edited.followReferences site.id (Position.afterInsert index 1), [])
  | .remove index =>
      match children[index.val]? with
      | none => .error (.indexOutOfBounds site.id index.val children.length)
      | some child =>
          let unlinked := arena.setData site.id (.array (children.eraseIdx index.val))
          let reached := unlinked.detach site.origin (site.path.child (.index index.val)) child
          .ok (reached.1.followReferences site.id (Position.afterRemove index 1), reached.2)
  | .replace index value =>
      match children[index.val]? with
      | none => .error (.indexOutOfBounds site.id index.val children.length)
      | some child => do
          arena.checkNew [value]
          let linked := (arena.attach (some site.id) value).setData site.id
            (.array (children.set index.val value.id))
          return linked.detach site.origin (site.path.child (.index index.val)) child
  | .move source target =>
      match children[source.val]? with
      | none => .error (.indexOutOfBounds site.id source.val children.length)
      | some child =>
          if children.length ≤ target.val then
            .error (.indexOutOfBounds site.id target.val children.length)
          else
            let edited := arena.setData site.id
              (.array ((children.eraseIdx source.val).insertIdx target.val child))
            .ok (edited.followReferences site.id (Position.afterMove source target), [])

def editProperty (arena : Arena) (site : Site) (children : List (String × NodeId)) :
    PropertyEdit → Except DocumentError (Arena × List ChangeEvent)
  | .add key value =>
      match Keyed.find? key children with
      | some _ => .error (.propertyExists site.id key)
      | none => do
          arena.checkNew [value]
          return ((arena.attach (some site.id) value).setData site.id
            (.object (Keyed.insert key value.id children)), [])
  | .set key value =>
      match Keyed.find? key children with
      | none => .error (.propertyNotFound site.id key)
      | some child => do
          arena.checkNew [value]
          let reached := arena.detach site.origin (site.path.child (.key key)) child
          return ((reached.1.attach (some site.id) value).setData site.id
            (.object (Keyed.insert key value.id children)), reached.2)
  | .remove key =>
      match Keyed.find? key children with
      | none => .error (.propertyNotFound site.id key)
      | some child =>
          let unlinked := arena.setData site.id (.object (Keyed.erase key children))
          .ok (unlinked.detach site.origin (site.path.child (.key key)) child)

/-- Replaces all of a node. References to positions in a text or a container do not survive. -/
def setContents (arena : Arena) (site : Site) (data : NodeData) :
    Contents → Except DocumentError (Arena × List ChangeEvent)
  | .string value => .ok ((arena.setData site.id (.string value)).dropReferences site.id, [])
  | .array values => do
      arena.checkNew values
      let reached := (arena.setData site.id (.array [])).detachChildren site.origin site.path data
      let edited := (attachItems site.id values reached.1).setData site.id
        (.array (values.map DataValue.id))
      return (edited.dropReferences site.id, reached.2)
  | .object values => do
      arena.checkNew (values.map Prod.snd)
      let reached := (arena.setData site.id (.object [])).detachChildren site.origin site.path data
      let edited := (attachMembers site.id values reached.1).setData site.id
        (.object (values.map fun entry => (entry.1, entry.2.id)))
      return (edited.dropReferences site.id, reached.2)
  | .number value => .ok (arena.setData site.id (.number value), [])
  | .boolean value => .ok (arena.setData site.id (.boolean value), [])
  | .date value => .ok (arena.setData site.id (.date value), [])

def change (arena : Arena) (site : Site) (data : NodeData) (change : Change) :
    Except DocumentError (Arena × List ChangeEvent) :=
  match change, data with
  | .set contents, data => arena.setContents site data contents
  | .text edit, .string text => arena.editText site text edit
  | .array edit, .array children => arena.editArray site children edit
  | .property edit, .object children => arena.editProperty site children edit
  | .addNumber amount, .number value => .ok (arena.setData site.id (.number (value + amount)), [])
  | _, _ => .error (.typeMismatch site.id change.kind.nodeKind data.kind)

/-- Applies an edit that is not a no-op. An edit of another session on a detached node is skipped,
and what it would have created counts as detached. -/
def applyEdit (arena : Arena) (origin : Origin) (edit : Edit) :
    Except DocumentError (Arena × List ChangeEvent) :=
  if arena.isDetached edit.target then
    match origin with
    | .own => .error (.detached edit.target)
    | .peer _ => .ok (edit.change.createdIds.foldl addDetached arena, [])
  else do
    let node ← arena.attached edit.target
    if node.data.kind ≠ edit.kind.nodeKind then
      throw (.typeMismatch edit.target edit.kind.nodeKind node.data.kind)
    let path ← arena.pathOf edit.target
    let (edited, events) ← arena.change ⟨origin, edit.target, path⟩ node.data edit.change
    let event := origin.event edit.target path (.applied edit.kind) (arena.json edit.target)
      (edited.json edit.target)
    return (edited, events ++ [event])

def applyEdits (arena : Arena) (origin : Origin) :
    List Edit → Except DocumentError (Arena × List ChangeEvent)
  | [] => .ok (arena, [])
  | edit :: rest =>
      if edit.isNoOp then arena.applyEdits origin rest
      else
        match arena.applyEdit origin edit with
        | .error fault => .error fault
        | .ok (edited, events) =>
            match edited.applyEdits origin rest with
            | .error fault => .error fault
            | .ok (reached, later) => .ok (reached, events ++ later)

end Arena

end SharedDocument
