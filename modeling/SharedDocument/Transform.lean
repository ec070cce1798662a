import SharedDocument.Transform.Array
import SharedDocument.Transform.Property
import SharedDocument.Transform.Text

/-! Transformation of concurrent operations. `transform server client` returns what each side
applies after its own operation, so that both reach one document. The server's order decides ties,
and setting a whole value discards concurrent edits of what it replaces. -/

namespace SharedDocument

inductive TransformError where
  | kindMismatch (id : NodeId) (server client : OperationKind)
  | overflow (fault : Overflow)
deriving DecidableEq, Repr

def TransformError.message : TransformError → String
  | .kindMismatch id server client =>
      "Operations on node " ++ id.text ++ " disagree on its kind: server " ++ server.name ++
        ", client " ++ client.name
  | .overflow fault => fault.message

/-- How the rule for an ordered pair of operation kinds is found: stated for this order, or
derived from the reverse order by exchanging the sides. -/
inductive Registration where
  | direct
  | inverse
deriving DecidableEq, Repr

/-- Rules are stated for pairs in the order in which the kinds are listed. Kinds of different
nodes have none. -/
def registration (server client : OperationKind) : Option Registration :=
  if server.nodeKind = client.nodeKind then
    if OperationKind.all.idxOf server ≤ OperationKind.all.idxOf client then some .direct
    else some .inverse
  else none

/-- Whether the first node is a strict ancestor of the second. -/
abbrev Ancestry : Type :=
  NodeId → NodeId → Bool

namespace Ancestry

def unrelated : Ancestry :=
  fun _ _ => false

def climb (parentOf : NodeId → Option NodeId) (ancestor : NodeId) : Nat → NodeId → Bool
  | 0, _ => false
  | steps + 1, node =>
      match parentOf node with
      | none => false
      | some parent => if parent = ancestor then true else climb parentOf ancestor steps parent

def ofParents (parents : List (NodeId × NodeId)) : Ancestry :=
  fun ancestor node => climb (fun id => Keyed.find? id parents) ancestor parents.length node

end Ancestry

namespace Change

/-- `none` if the changes are for different kinds of node. -/
def transform (server client : Change) : Except Overflow (Option (Outcome Change)) :=
  if server.kind.nodeKind = client.kind.nodeKind then
    match server, client with
    | .set left, .set right => .ok (some (.writeConflict (left.same right) server client))
    | .set _, _ => .ok (some (.keepServer server client))
    | _, .set _ => .ok (some (.keepClient server client))
    | .text left, .text right => (left.transform right).map fun pair => some (pair.lift .text)
    | .array left, .array right => (left.transform right).map fun pair => some (pair.lift .array)
    | .property left, .property right => .ok (some ((left.transform right).lift .property))
    | .addNumber _, .addNumber _ => .ok (some (.keepBoth server client))
    | _, _ => .ok none
  else .ok none

end Change

namespace Edit

def adapt (edit : Edit) (adapted : Adapted Change) : Edit :=
  { edit with change := adapted.change, isNoOp := edit.isNoOp || adapted.isNoOp }

/-- Edits of different nodes do not disturb each other, unless one sets a container above the
other's target. -/
def transform (ancestry : Ancestry) (server client : Edit) :
    Except TransformError (Transformed Edit) :=
  if server.isNoOp || client.isNoOp then .ok ⟨server, client⟩
  else if server.target = client.target then
    match server.change.transform client.change with
    | .error fault => .error (.overflow fault)
    | .ok none => .error (.kindMismatch server.target server.kind client.kind)
    | .ok (some pair) => .ok ⟨server.adapt pair.server, client.adapt pair.client⟩
  else if server.change.discardsSubtree && ancestry server.target client.target then
    .ok ⟨server, client.asNoOp⟩
  else if client.change.discardsSubtree && ancestry client.target server.target then
    .ok ⟨server.asNoOp, client⟩
  else .ok ⟨server, client⟩

end Edit

namespace Operation

mutual

def transformEdit (ancestry : Ancestry) (server : Edit) :
    Operation → Except TransformError (Edit × Operation)
  | .single client =>
      (server.transform ancestry client).map fun pair => (pair.server, .single pair.client)
  | .group elements =>
      (transformEdits ancestry server elements).map fun result => (result.1, .group result.2)

def transformEdits (ancestry : Ancestry) (server : Edit) :
    List Operation → Except TransformError (Edit × List Operation)
  | [] => .ok (server, [])
  | first :: rest =>
      match transformEdit ancestry server first with
      | .error fault => .error fault
      | .ok (server, first) =>
          (transformEdits ancestry server rest).map fun result => (result.1, first :: result.2)

end

mutual

/-- Each element of a group meets what the other side has become so far. -/
def transform (ancestry : Ancestry) :
    Operation → Operation → Except TransformError (Transformed Operation)
  | .single server, client =>
      (transformEdit ancestry server client).map fun result => ⟨.single result.1, result.2⟩
  | .group elements, client =>
      (transformElements ancestry elements client).map fun result => ⟨.group result.1, result.2⟩

def transformElements (ancestry : Ancestry) :
    List Operation → Operation → Except TransformError (List Operation × Operation)
  | [], client => .ok ([], client)
  | first :: rest, client =>
      match transform ancestry first client with
      | .error fault => .error fault
      | .ok pair =>
          (transformElements ancestry rest pair.client).map fun result =>
            (pair.server :: result.1, result.2)

end

end Operation

end SharedDocument
