import SharedDocument.Operation
import SharedDocument.Wire.Value

/-! The wire format of operations. The fields of a change stand beside the target and the no-op
flag of its edit; a group is an object with its elements under `ops`. -/

namespace SharedDocument

namespace OperationKind

def encode (kind : OperationKind) : Json :=
  .string kind.name

def decode? : Json → Option OperationKind :=
  Wire.variant? all name

def fieldNames : OperationKind → List String
  | .stringInsert => ["index", "value"]
  | .stringRemove => ["index", "length"]
  | .stringSet => ["value"]
  | .arrayInsert => ["index", "value"]
  | .arrayRemove => ["index"]
  | .arrayReplace => ["index", "value"]
  | .arrayMove => ["fromIndex", "toIndex"]
  | .arraySet => ["value"]
  | .objectAddProperty => ["key", "value"]
  | .objectSetProperty => ["key", "value"]
  | .objectRemoveProperty => ["key"]
  | .objectSet => ["value"]
  | .numberAdd => ["value"]
  | .numberSet => ["value"]
  | .booleanSet => ["value"]
  | .dateSet => ["value"]

end OperationKind

namespace Contents

def encode : Contents → Json
  | .string value => .string value
  | .array children => .array (DataValue.encodeItems children)
  | .object children => .object (DataValue.encodeMembers children)
  | .number value => Json.number value
  | .boolean value => .bool value
  | .date value => .string value.text

end Contents

namespace Change

def members (change : Change) : List (String × Json) :=
  let kind := ("type", change.kind.encode)
  match change with
  | .set contents => [kind, ("value", contents.encode)]
  | .text (.insert index value) => [("index", Wire.word index), kind, ("value", .string value)]
  | .text (.remove index length) =>
      [("index", Wire.word index), ("length", Wire.word length), kind]
  | .array (.insert index value) => [("index", Wire.word index), kind, ("value", value.encode)]
  | .array (.remove index) => [("index", Wire.word index), kind]
  | .array (.replace index value) => [("index", Wire.word index), kind, ("value", value.encode)]
  | .array (.move source target) =>
      [("fromIndex", Wire.word source), ("toIndex", Wire.word target), kind]
  | .property (.add key value) => [("key", .string key), kind, ("value", value.encode)]
  | .property (.set key value) => [("key", .string key), kind, ("value", value.encode)]
  | .property (.remove key) => [("key", .string key), kind]
  | .addNumber value => [kind, ("value", Json.number value)]

def encode (change : Change) : Json :=
  .object change.members

def ofFields? (kind : OperationKind) (fields : List (Option Json)) : Option Change :=
  match kind, fields with
  | .stringInsert, [some index, some value] => do
      return .text (.insert (← Wire.word? index) (← Wire.text? value))
  | .stringRemove, [some index, some length] => do
      return .text (.remove (← Wire.word? index) (← Wire.word? length))
  | .stringSet, [some value] => do return .set (.string (← Wire.text? value))
  | .arrayInsert, [some index, some value] => do
      return .array (.insert (← Wire.word? index) (← DataValue.decodeAs true value))
  | .arrayRemove, [some index] => do return .array (.remove (← Wire.word? index))
  | .arrayReplace, [some index, some value] => do
      return .array (.replace (← Wire.word? index) (← DataValue.decodeAs true value))
  | .arrayMove, [some source, some target] => do
      return .array (.move (← Wire.word? source) (← Wire.word? target))
  | .arraySet, [some value] => do return .set (.array (← DataValue.decodeList? value))
  | .objectAddProperty, [some key, some value] => do
      return .property (.add (← Wire.text? key) (← DataValue.decodeAs true value))
  | .objectSetProperty, [some key, some value] => do
      return .property (.set (← Wire.text? key) (← DataValue.decodeAs true value))
  | .objectRemoveProperty, [some key] => do return .property (.remove (← Wire.text? key))
  | .objectSet, [some value] => do return .set (.object (← DataValue.decodeTable? value))
  | .numberAdd, [some value] => do return .addNumber (← Wire.float? value)
  | .numberSet, [some value] => do return .set (.number (← Wire.float? value))
  | .booleanSet, [some value] => do return .set (.boolean (← Wire.bool? value))
  | .dateSet, [some value] => do return .set (.date (← Wire.instant? value))
  | _, _ => none

def decodeAs (isNested : Bool) : Json → Option Change
  | .object members => do
      let kind ← Wire.tag? isNested OperationKind.all OperationKind.name
        (← Keyed.find? "type" members)
      ofFields? kind (← Wire.fields? kind.fieldNames (.object members))
  | .array (tag :: fields) => do
      let kind ← Wire.tag? isNested OperationKind.all OperationKind.name tag
      ofFields? kind (← Wire.fields? kind.fieldNames (.array fields))
  | _ => none

def decode? : Json → Option Change :=
  decodeAs false

end Change

namespace Edit

def encode (edit : Edit) : Json :=
  .object (Keyed.insert "id" edit.target.encode
    (Keyed.insert "noOp" (.bool edit.isNoOp) edit.change.members))

/-- The no-op flag may be missing, but not null. -/
def decode? : Json → Option Edit
  | .object members => do
      let target ← NodeId.decode? (← Keyed.find? "id" members)
      let isNoOp ← match Keyed.find? "noOp" members with
        | none => some false
        | some flag => Wire.bool? flag
      let change ← Change.decodeAs true (.object members)
      return ⟨target, isNoOp, change⟩
  | _ => none

end Edit

namespace Operation

mutual

def encode : Operation → Json
  | .single edit => edit.encode
  | .group elements =>
      .object [("ops", .array (encodeList elements)), ("type", .string "Compound")]

def encodeList : List Operation → List Json
  | [] => []
  | first :: rest => encode first :: encodeList rest

end

mutual

/-- An edit if it reads as one, else a group. What a group has for its type does not matter. -/
def decode? : Json → Option Operation
  | .object members =>
      match Edit.decode? (.object members) with
      | some edit => some (.single edit)
      | none => (elementsField members).map .group
  | .array [elements] => (decodeElements elements).map .group
  | _ => none

def elementsField : List (String × Json) → Option (List Operation)
  | [] => none
  | (key, json) :: rest => if key = "ops" then decodeElements json else elementsField rest

def decodeElements : Json → Option (List Operation)
  | .array items => decodeList items
  | _ => none

def decodeList : List Json → Option (List Operation)
  | [] => some []
  | item :: rest =>
      match decode? item, decodeList rest with
      | some first, some others => some (first :: others)
      | _, _ => none

end

def decodeGroup? : Json → Option Operation
  | .object members => (elementsField members).map .group
  | .array [elements] => (decodeElements elements).map .group
  | _ => none

end Operation

end SharedDocument
