import SharedDocument.Keyed

/-! JSON values. A number is an integer or a 64-bit float, and the two are never equal; the
members of an object are listed in increasing key order. -/

namespace SharedDocument

inductive Json where
  | null
  | bool (value : Bool)
  | int (value : Int)
  | float (value : Float)
  | string (value : String)
  | array (items : List Json)
  | object (members : List (String × Json))
deriving Inhabited, Repr

namespace Json

mutual

/-- Floats are compared as numbers, so the two zeros are equal. -/
def same : Json → Json → Bool
  | .null, .null => true
  | .bool left, .bool right => left == right
  | .int left, .int right => left == right
  | .float left, .float right => left == right
  | .string left, .string right => left == right
  | .array left, .array right => sameItems left right
  | .object left, .object right => sameMembers left right
  | _, _ => false

def sameItems : List Json → List Json → Bool
  | [], [] => true
  | left :: lefts, right :: rights => same left right && sameItems lefts rights
  | _, _ => false

def sameMembers : List (String × Json) → List (String × Json) → Bool
  | [], [] => true
  | (leftKey, left) :: lefts, (rightKey, right) :: rights =>
      leftKey == rightKey && same left right && sameMembers lefts rights
  | _, _ => false

end

instance : BEq Json := ⟨same⟩

mutual

def depth : Json → Nat
  | .array items => depthOfItems items + 1
  | .object members => depthOfMembers members + 1
  | _ => 0

def depthOfItems : List Json → Nat
  | [] => 0
  | item :: rest => max (depth item) (depthOfItems rest)

def depthOfMembers : List (String × Json) → Nat
  | [] => 0
  | (_, member) :: rest => max (depth member) (depthOfMembers rest)

end

def member? (name : String) : Json → Option Json
  | .object members => Keyed.find? name members
  | _ => none

/-- A float that is not finite has no JSON form and is written as null. -/
def number (value : Float) : Json :=
  if value.isFinite then .float value else .null

end Json

end SharedDocument
