import SharedDocument.Value
import SharedDocument.Word

/-! Operations on a document. A change says what happens to one node: its whole value is set, or
it is edited in place. An edit names the node, and an operation is one edit or a group that is
applied as a unit. An edit that is a no-op keeps its place in a group and changes nothing. -/

namespace SharedDocument

inductive Contents where
  | string (value : String)
  | array (children : List DataValue)
  | object (children : List (String × DataValue))
  | number (value : Float)
  | boolean (value : Bool)
  | date (value : Instant)
deriving Inhabited, Repr

/-- Positions in a text count characters. -/
inductive TextEdit where
  | insert (index : Word) (value : String)
  | remove (index length : Word)
deriving DecidableEq, Repr

/-- A moved element ends up at the target position. -/
inductive ArrayEdit where
  | insert (index : Word) (value : DataValue)
  | remove (index : Word)
  | replace (index : Word) (value : DataValue)
  | move (source target : Word)
deriving Repr

inductive PropertyEdit where
  | add (key : String) (value : DataValue)
  | set (key : String) (value : DataValue)
  | remove (key : String)
deriving Repr

inductive Change where
  | set (contents : Contents)
  | text (edit : TextEdit)
  | array (edit : ArrayEdit)
  | property (edit : PropertyEdit)
  | addNumber (value : Float)
deriving Repr

inductive OperationKind where
  | stringInsert
  | stringRemove
  | stringSet
  | arrayInsert
  | arrayRemove
  | arrayReplace
  | arrayMove
  | arraySet
  | objectAddProperty
  | objectSetProperty
  | objectRemoveProperty
  | objectSet
  | numberAdd
  | numberSet
  | booleanSet
  | dateSet
deriving DecidableEq, Repr

namespace OperationKind

def all : List OperationKind :=
  [.stringInsert, .stringRemove, .stringSet, .arrayInsert, .arrayRemove, .arrayReplace, .arrayMove,
    .arraySet, .objectAddProperty, .objectSetProperty, .objectRemoveProperty, .objectSet,
    .numberAdd, .numberSet, .booleanSet, .dateSet]

def name : OperationKind → String
  | .stringInsert => "StringInsert"
  | .stringRemove => "StringRemove"
  | .stringSet => "StringSet"
  | .arrayInsert => "ArrayInsert"
  | .arrayRemove => "ArrayRemove"
  | .arrayReplace => "ArrayReplace"
  | .arrayMove => "ArrayMove"
  | .arraySet => "ArraySet"
  | .objectAddProperty => "ObjectAddProperty"
  | .objectSetProperty => "ObjectSetProperty"
  | .objectRemoveProperty => "ObjectRemoveProperty"
  | .objectSet => "ObjectSet"
  | .numberAdd => "NumberAdd"
  | .numberSet => "NumberSet"
  | .booleanSet => "BooleanSet"
  | .dateSet => "DateSet"

def nodeKind : OperationKind → NodeKind
  | .stringInsert | .stringRemove | .stringSet => .string
  | .arrayInsert | .arrayRemove | .arrayReplace | .arrayMove | .arraySet => .array
  | .objectAddProperty | .objectSetProperty | .objectRemoveProperty | .objectSet => .object
  | .numberAdd | .numberSet => .number
  | .booleanSet => .boolean
  | .dateSet => .date

def isValueSet : OperationKind → Bool
  | .stringSet | .arraySet | .objectSet | .numberSet | .booleanSet | .dateSet => true
  | _ => false

end OperationKind

namespace Contents

def setKind : Contents → OperationKind
  | .string _ => .stringSet
  | .array _ => .arraySet
  | .object _ => .objectSet
  | .number _ => .numberSet
  | .boolean _ => .booleanSet
  | .date _ => .dateSet

def same : Contents → Contents → Bool
  | .string left, .string right => left == right
  | .array left, .array right => DataValue.sameItems left right
  | .object left, .object right => DataValue.sameMembers left right
  | .number left, .number right => left == right
  | .boolean left, .boolean right => left == right
  | .date left, .date right => left == right
  | _, _ => false

def values : Contents → List DataValue
  | .array children => children
  | .object children => children.map Prod.snd
  | _ => []

end Contents

namespace TextEdit

def kind : TextEdit → OperationKind
  | .insert _ _ => .stringInsert
  | .remove _ _ => .stringRemove

end TextEdit

namespace ArrayEdit

def kind : ArrayEdit → OperationKind
  | .insert _ _ => .arrayInsert
  | .remove _ => .arrayRemove
  | .replace _ _ => .arrayReplace
  | .move _ _ => .arrayMove

def same : ArrayEdit → ArrayEdit → Bool
  | .insert leftIndex left, .insert rightIndex right => leftIndex == rightIndex && left == right
  | .remove left, .remove right => left == right
  | .replace leftIndex left, .replace rightIndex right => leftIndex == rightIndex && left == right
  | .move leftSource leftTarget, .move rightSource rightTarget =>
      leftSource == rightSource && leftTarget == rightTarget
  | _, _ => false

def values : ArrayEdit → List DataValue
  | .insert _ value => [value]
  | .replace _ value => [value]
  | _ => []

end ArrayEdit

namespace PropertyEdit

def kind : PropertyEdit → OperationKind
  | .add _ _ => .objectAddProperty
  | .set _ _ => .objectSetProperty
  | .remove _ => .objectRemoveProperty

def key : PropertyEdit → String
  | .add key _ => key
  | .set key _ => key
  | .remove key => key

def same : PropertyEdit → PropertyEdit → Bool
  | .add leftKey left, .add rightKey right => leftKey == rightKey && left == right
  | .set leftKey left, .set rightKey right => leftKey == rightKey && left == right
  | .remove left, .remove right => left == right
  | _, _ => false

def values : PropertyEdit → List DataValue
  | .add _ value => [value]
  | .set _ value => [value]
  | .remove _ => []

end PropertyEdit

namespace Change

def kind : Change → OperationKind
  | .set contents => contents.setKind
  | .text edit => edit.kind
  | .array edit => edit.kind
  | .property edit => edit.kind
  | .addNumber _ => .numberAdd

def same : Change → Change → Bool
  | .set left, .set right => left.same right
  | .text left, .text right => left == right
  | .array left, .array right => left.same right
  | .property left, .property right => left.same right
  | .addNumber left, .addNumber right => left == right
  | _, _ => false

def createdValues : Change → List DataValue
  | .set contents => contents.values
  | .array edit => edit.values
  | .property edit => edit.values
  | _ => []

def createdIds (change : Change) : List NodeId :=
  change.createdValues.flatMap DataValue.nodeIds

def discardsSubtree (change : Change) : Bool :=
  change.kind.isValueSet && change.kind.nodeKind.isContainer

end Change

structure Edit where
  target : NodeId
  isNoOp : Bool
  change : Change
deriving Repr

namespace Edit

def on (target : NodeId) (change : Change) : Edit :=
  ⟨target, false, change⟩

def kind (edit : Edit) : OperationKind :=
  edit.change.kind

def asNoOp (edit : Edit) : Edit :=
  { edit with isNoOp := true }

def withChange (edit : Edit) (change : Change) : Edit :=
  { edit with change := change }

def same (left right : Edit) : Bool :=
  left.target == right.target && left.isNoOp == right.isNoOp && left.change.same right.change

end Edit

inductive Operation where
  | single (edit : Edit)
  | group (elements : List Operation)
deriving Repr

namespace Operation

def removeProperties (target : NodeId) (keys : List String) : Operation :=
  .group (keys.map fun key => .single (.on target (.property (.remove key))))

def setProperties (target : NodeId) (entries : List (String × DataValue)) : Operation :=
  .group (entries.map fun entry => .single (.on target (.property (.set entry.1 entry.2))))

mutual

def isNoOp : Operation → Bool
  | .single edit => edit.isNoOp
  | .group elements => areNoOps elements

def areNoOps : List Operation → Bool
  | [] => true
  | first :: rest => isNoOp first && areNoOps rest

end

mutual

def asNoOp : Operation → Operation
  | .single edit => .single edit.asNoOp
  | .group elements => .group (asNoOps elements)

def asNoOps : List Operation → List Operation
  | [] => []
  | first :: rest => asNoOp first :: asNoOps rest

end

mutual

def edits : Operation → List Edit
  | .single edit => [edit]
  | .group elements => groupEdits elements

def groupEdits : List Operation → List Edit
  | [] => []
  | first :: rest => edits first ++ groupEdits rest

end

def createdIds (operation : Operation) : List NodeId :=
  operation.edits.flatMap fun edit => edit.change.createdIds

/-- Ids that would have been created by elements that have become no-ops. -/
def supersededIds (operation : Operation) : List NodeId :=
  (operation.edits.filter Edit.isNoOp).flatMap fun edit => edit.change.createdIds

end Operation

end SharedDocument
