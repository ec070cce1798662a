import SharedDocument.Event
import SharedDocument.Reference
import SharedDocument.Wire.Operation

/-! The wire format of paths, references and change events. -/

namespace SharedDocument

namespace PathElement

def encode : PathElement → Json
  | .key name => .string name
  | .index position => .int position

def decode? : Json → Option PathElement
  | .string name => some (.key name)
  | json => (Wire.natural? json).map .index

end PathElement

namespace Path

def encode (path : Path) : Json :=
  .array (path.map PathElement.encode)

def decode? : Json → Option Path :=
  Wire.list? PathElement.decode?

end Path

namespace IndexRange

def encode (range : IndexRange) : Json :=
  .object [("end", Wire.word range.finish), ("start", Wire.word range.start)]

def decode? (json : Json) : Option IndexRange :=
  match Wire.fields? ["start", "end"] json with
  | some [some start, some finish] => do return ⟨← Wire.word? start, ← Wire.word? finish⟩
  | _ => none

end IndexRange

inductive ReferenceShape where
  | index
  | indices
  | range
  | ranges
deriving DecidableEq, Repr

namespace ReferenceShape

def all : List ReferenceShape :=
  [.index, .indices, .range, .ranges]

def name : ReferenceShape → String
  | .index => "index"
  | .indices => "indices"
  | .range => "range"
  | .ranges => "ranges"

end ReferenceShape

namespace ReferenceValue

def encodeAs (shape : ReferenceShape) (value : Json) : Json :=
  .object [("type", .string shape.name), ("value", value)]

def encode : ReferenceValue → Json
  | .index position => encodeAs .index (Wire.word position)
  | .indices positions => encodeAs .indices (.array (positions.map Wire.word))
  | .range selection => encodeAs .range selection.encode
  | .ranges selections => encodeAs .ranges (.array (selections.map IndexRange.encode))

def ofShape? (shape : ReferenceShape) (value : Json) : Option ReferenceValue :=
  match shape with
  | .index => (Wire.word? value).map .index
  | .indices => (Wire.list? Wire.word? value).map .indices
  | .range => (IndexRange.decode? value).map .range
  | .ranges => (Wire.list? IndexRange.decode? value).map .ranges

/-- In an array the shape is the bare name. -/
def decode? : Json → Option ReferenceValue
  | .object members => do
      let shape ← Wire.variant? ReferenceShape.all ReferenceShape.name
        (← Keyed.find? "type" members)
      ofShape? shape (← Keyed.find? "value" members)
  | .array [tag, value] => do
      ofShape? (← Wire.tag? false ReferenceShape.all ReferenceShape.name tag) value
  | _ => none

end ReferenceValue

namespace Reference

def encode (reference : Reference) : Json :=
  .object [("key", .string reference.name.key), ("sessionId", .string reference.name.sessionId),
    ("value", reference.value.encode)]

def decode? (json : Json) : Option Reference :=
  match Wire.fields? ["sessionId", "key", "value"] json with
  | some [some sessionId, some key, some value] => do
      return ⟨⟨← Wire.text? sessionId, ← Wire.text? key⟩, ← ReferenceValue.decode? value⟩
  | _ => none

end Reference

namespace ChangeKind

def encode : ChangeKind → Json
  | .applied kind => .object [("Applied", kind.encode)]
  | .detached => .string "Detached"

def decode? : Json → Option ChangeKind
  | .string "Detached" => some .detached
  | .object [("Detached", .null)] => some .detached
  | .object [("Applied", kind)] => (OperationKind.decode? kind).map .applied
  | _ => none

end ChangeKind

namespace ChangeEvent

def encode (event : ChangeEvent) : Json :=
  .object [("kind", event.kind.encode), ("local", .bool event.isLocal),
    ("newValue", event.newValue.getD .null), ("nodeId", event.nodeId.encode),
    ("oldValue", event.oldValue.getD .null), ("path", Path.encode event.path),
    ("sessionId", Wire.option .string event.sessionId)]

def decode? (json : Json) : Option ChangeEvent :=
  match Wire.fields? ["nodeId", "path", "kind", "oldValue", "newValue", "local", "sessionId"]
      json with
  | some [some nodeId, some path, some kind, oldValue, newValue, some isLocal, sessionId] => do
      return {
        nodeId := ← NodeId.decode? nodeId
        path := ← Path.decode? path
        kind := ← ChangeKind.decode? kind
        oldValue := ← Wire.optional? some oldValue
        newValue := ← Wire.optional? some newValue
        isLocal := ← Wire.bool? isLocal
        sessionId := ← Wire.optional? Wire.text? sessionId }
  | _ => none

end ChangeEvent

end SharedDocument
