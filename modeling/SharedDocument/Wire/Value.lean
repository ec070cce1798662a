import SharedDocument.Value
import SharedDocument.Wire

/-! The wire format of values: an object whose member `type` is the kind of the node, or an array
of the kind, the id and the contents. -/

namespace SharedDocument

namespace NodeId

def encode (id : NodeId) : Json :=
  .string id.text

def decode? (json : Json) : Option NodeId :=
  (Wire.text? json).map NodeId.mk

end NodeId

namespace NodeKind

def wireName : NodeKind → String
  | .object => "Object"
  | .array => "Array"
  | .string => "String"
  | .number => "Number"
  | .boolean => "Boolean"
  | .date => "Date"
  | .null => "Null"

def encode (kind : NodeKind) : Json :=
  .string kind.wireName

def decode? : Json → Option NodeKind :=
  Wire.variant? all wireName

end NodeKind

namespace DataValue

mutual

def encode : DataValue → Json
  | .object id children =>
      .object [("children", .object (encodeMembers children)), ("id", id.encode),
        ("type", .string "object")]
  | .array id children =>
      .object [("children", .array (encodeItems children)), ("id", id.encode),
        ("type", .string "array")]
  | .string id value =>
      .object [("id", id.encode), ("type", .string "string"), ("value", .string value)]
  | .number id value =>
      .object [("id", id.encode), ("type", .string "number"), ("value", Json.number value)]
  | .boolean id value =>
      .object [("id", id.encode), ("type", .string "boolean"), ("value", .bool value)]
  | .date id value =>
      .object [("id", id.encode), ("type", .string "date"), ("value", .string value.text)]
  | .null id => .object [("id", id.encode), ("type", .string "null")]

def encodeItems : List DataValue → List Json
  | [] => []
  | child :: rest => encode child :: encodeItems rest

def encodeMembers : List (String × DataValue) → List (String × Json)
  | [] => []
  | (key, child) :: rest => (key, encode child) :: encodeMembers rest

end

inductive Children where
  | items (values : List DataValue)
  | members (values : List (String × DataValue))

def assemble (kind : NodeKind) (id : NodeId) (contents : Option Json) (children : Option Children) :
    Option DataValue :=
  match kind with
  | .object =>
      match children with
      | some (.members values) => some (.object id values)
      | _ => none
  | .array =>
      match children with
      | some (.items values) => some (.array id values)
      | _ => none
  | .string => (contents.bind Wire.text?).map (.string id)
  | .number => (contents.bind Wire.float?).map (.number id)
  | .boolean => (contents.bind Wire.bool?).map (.boolean id)
  | .date => (contents.bind Wire.instant?).map (.date id)
  | .null => some (.null id)

mutual

def decodeAs (isNested : Bool) : Json → Option DataValue
  | .object members => do
      let kind ← Wire.tag? isNested NodeKind.all NodeKind.name (← Keyed.find? "type" members)
      let id ← NodeId.decode? (← Keyed.find? "id" members)
      assemble kind id (Keyed.find? "value" members) (childrenField members)
  | .array [tag, id] => do
      let kind ← Wire.tag? isNested NodeKind.all NodeKind.name tag
      let id ← NodeId.decode? id
      if kind = .null then some (.null id) else none
  | .array [tag, id, contents] => do
      let kind ← Wire.tag? isNested NodeKind.all NodeKind.name tag
      let id ← NodeId.decode? id
      if kind = .null then none else assemble kind id (some contents) (decodeChildren contents)
  | _ => none

def childrenField : List (String × Json) → Option Children
  | [] => none
  | (key, json) :: rest => if key = "children" then decodeChildren json else childrenField rest

def decodeChildren : Json → Option Children
  | .array items => (decodeItems items).map .items
  | .object members => (decodeMembers members).map .members
  | _ => none

def decodeItems : List Json → Option (List DataValue)
  | [] => some []
  | item :: rest =>
      match decodeAs true item, decodeItems rest with
      | some value, some values => some (value :: values)
      | _, _ => none

def decodeMembers : List (String × Json) → Option (List (String × DataValue))
  | [] => some []
  | (key, member) :: rest =>
      match decodeAs true member, decodeMembers rest with
      | some value, some values => some ((key, value) :: values)
      | _, _ => none

end

def decode? : Json → Option DataValue :=
  decodeAs false

def decodeList? : Json → Option (List DataValue)
  | .array items => decodeItems items
  | _ => none

def decodeTable? : Json → Option (List (String × DataValue))
  | .object members => decodeMembers members
  | _ => none

end DataValue

end SharedDocument
