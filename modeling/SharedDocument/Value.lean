import SharedDocument.Json
import SharedDocument.Instant.Text

/-! Values of document nodes. Every node inside a value carries its own id; ids are given out by
the session that creates the value and are never reused, so a peer can name a node that another
session created. -/

namespace SharedDocument

structure NodeId where
  text : String
deriving DecidableEq, Repr, Inhabited

instance : LT NodeId := ⟨fun left right => left.text < right.text⟩

instance : DecidableLT NodeId := fun left right =>
  inferInstanceAs (Decidable (left.text < right.text))

inductive NodeKind where
  | object
  | array
  | string
  | number
  | boolean
  | date
  | null
deriving DecidableEq, Repr

namespace NodeKind

def all : List NodeKind :=
  [.object, .array, .string, .number, .boolean, .date, .null]

def name : NodeKind → String
  | .object => "object"
  | .array => "array"
  | .string => "string"
  | .number => "number"
  | .boolean => "boolean"
  | .date => "date"
  | .null => "null"

def isContainer : NodeKind → Bool
  | .object => true
  | .array => true
  | _ => false

end NodeKind

/-- A value with an id at every level. The children of an object are listed in increasing key
order. -/
inductive DataValue where
  | object (id : NodeId) (children : List (String × DataValue))
  | array (id : NodeId) (children : List DataValue)
  | string (id : NodeId) (value : String)
  | number (id : NodeId) (value : Float)
  | boolean (id : NodeId) (value : Bool)
  | date (id : NodeId) (value : Instant)
  | null (id : NodeId)
deriving Inhabited, Repr

namespace DataValue

def id : DataValue → NodeId
  | .object id _ => id
  | .array id _ => id
  | .string id _ => id
  | .number id _ => id
  | .boolean id _ => id
  | .date id _ => id
  | .null id => id

def kind : DataValue → NodeKind
  | .object _ _ => .object
  | .array _ _ => .array
  | .string _ _ => .string
  | .number _ _ => .number
  | .boolean _ _ => .boolean
  | .date _ _ => .date
  | .null _ => .null

mutual

def same : DataValue → DataValue → Bool
  | .object leftId left, .object rightId right => leftId == rightId && sameMembers left right
  | .array leftId left, .array rightId right => leftId == rightId && sameItems left right
  | .string leftId left, .string rightId right => leftId == rightId && left == right
  | .number leftId left, .number rightId right => leftId == rightId && left == right
  | .boolean leftId left, .boolean rightId right => leftId == rightId && left == right
  | .date leftId left, .date rightId right => leftId == rightId && left == right
  | .null leftId, .null rightId => leftId == rightId
  | _, _ => false

def sameItems : List DataValue → List DataValue → Bool
  | [], [] => true
  | left :: lefts, right :: rights => same left right && sameItems lefts rights
  | _, _ => false

def sameMembers : List (String × DataValue) → List (String × DataValue) → Bool
  | [], [] => true
  | (leftKey, left) :: lefts, (rightKey, right) :: rights =>
      leftKey == rightKey && same left right && sameMembers lefts rights
  | _, _ => false

end

instance : BEq DataValue := ⟨same⟩

mutual

/-- All ids in a value, a parent before its children. -/
def nodeIds : DataValue → List NodeId
  | .object id children => id :: memberIds children
  | .array id children => id :: itemIds children
  | .string id _ => [id]
  | .number id _ => [id]
  | .boolean id _ => [id]
  | .date id _ => [id]
  | .null id => [id]

def itemIds : List DataValue → List NodeId
  | [] => []
  | child :: rest => nodeIds child ++ itemIds rest

def memberIds : List (String × DataValue) → List NodeId
  | [] => []
  | (_, child) :: rest => nodeIds child ++ memberIds rest

end

mutual

def json : DataValue → Json
  | .object _ children => .object (memberJson children)
  | .array _ children => .array (itemJson children)
  | .string _ value => .string value
  | .number _ value => Json.number value
  | .boolean _ value => .bool value
  | .date _ value => .string value.textInMillis
  | .null _ => .null

def itemJson : List DataValue → List Json
  | [] => []
  | child :: rest => json child :: itemJson rest

def memberJson : List (String × DataValue) → List (String × Json)
  | [] => []
  | (key, child) :: rest => (key, json child) :: memberJson rest

end

end DataValue

end SharedDocument
