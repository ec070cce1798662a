import SharedDocument.Json
import SharedDocument.Instant.Text
import SharedDocument.Word

/-! Shapes of the wire format. A record is an object, or the array of its fields in their order.
Fields that are not known are ignored. -/

namespace SharedDocument.Wire

def text? : Json → Option String
  | .string value => some value
  | _ => none

def bool? : Json → Option Bool
  | .bool value => some value
  | _ => none

def word? : Json → Option Word
  | .int value => if 0 ≤ value then Word.ofNat? value.toNat else none
  | _ => none

def natural? (json : Json) : Option Nat :=
  (word? json).map Word.val

def float? : Json → Option Float
  | .int value => some (Float.ofInt value)
  | .float value => some value
  | _ => none

def instant? (json : Json) : Option Instant :=
  (text? json).bind Instant.parse?

def list? {α : Type} (decode : Json → Option α) : Json → Option (List α)
  | .array items => items.mapM decode
  | _ => none

def word (value : Word) : Json :=
  .int value.val

def option {α : Type} (encode : α → Json) : Option α → Json
  | none => .null
  | some value => encode value

def fields? (names : List String) : Json → Option (List (Option Json))
  | .object members => some (names.map fun name => Keyed.find? name members)
  | .array items => if items.length = names.length then some (items.map some) else none
  | _ => none

/-- A field that may be missing or null. -/
def optional? {α : Type} (decode : Json → Option α) : Option Json → Option (Option α)
  | none => some none
  | some .null => some none
  | some json => (decode json).map some

/-- One of several names: the name itself, or an object whose only member it is, with null. -/
def variant? {α : Type} (choices : List α) (name : α → String) : Json → Option α
  | .string text => choices.find? fun choice => name choice == text
  | .object [(text, .null)] => choices.find? fun choice => name choice == text
  | _ => none

/-- The tag of a tagged record. In a record inside another one the tag may also be given by its
position among all tags. -/
def tag? {α : Type} (isNested : Bool) (choices : List α) (name : α → String) : Json → Option α
  | .string text => choices.find? fun choice => name choice == text
  | .int position =>
      if isNested && 0 ≤ position then choices[position.toNat]? else none
  | _ => none

end SharedDocument.Wire
