import SharedDocument.Json.Number

/-! Reading JSON text. Each function takes the characters ahead and returns what it read together
with the characters left. A value that will be ignored is read loosely: its grammar is checked,
but numbers may be out of range and escapes need not form characters. -/

namespace SharedDocument.Json.Reader

inductive Manner where
  | strict
  | loose
deriving DecidableEq

def isBlank (char : Char) : Bool :=
  char == ' ' || char == '\n' || char == '\t' || char == '\r'

def skipBlank (chars : List Char) : List Char :=
  chars.dropWhile isBlank

def hexDigit? (char : Char) : Option Nat :=
  if '0' ≤ char ∧ char ≤ '9' then some (char.toNat - '0'.toNat)
  else if 'a' ≤ char ∧ char ≤ 'f' then some (char.toNat - 'a'.toNat + 10)
  else if 'A' ≤ char ∧ char ≤ 'F' then some (char.toNat - 'A'.toNat + 10)
  else none

def hexUnit? (first second third fourth : Char) : Option Nat := do
  let first ← hexDigit? first
  let second ← hexDigit? second
  let third ← hexDigit? third
  let fourth ← hexDigit? fourth
  return ((first * 16 + second) * 16 + third) * 16 + fourth

def simpleEscape? : Char → Option Char
  | '"' => some '"'
  | '\\' => some '\\'
  | '/' => some '/'
  | 'b' => some '\x08'
  | 'f' => some '\x0c'
  | 'n' => some '\n'
  | 'r' => some '\r'
  | 't' => some '\t'
  | _ => none

/-- What a string literal holds before escapes are joined: a character, or a 16-bit unit that was
written with four hexadecimal digits. -/
inductive Piece where
  | char (value : Char)
  | unit (value : Nat)

def pieces : List Char → Option (List Piece × List Char)
  | [] => none
  | '"' :: rest => some ([], rest)
  | '\\' :: 'u' :: first :: second :: third :: fourth :: rest => do
      let unit ← hexUnit? first second third fourth
      let (later, remainder) ← pieces rest
      return (.unit unit :: later, remainder)
  | '\\' :: escaped :: rest => do
      let char ← simpleEscape? escaped
      let (later, remainder) ← pieces rest
      return (.char char :: later, remainder)
  | char :: rest =>
      if char.toNat < 32 || char == '\\' then none
      else (pieces rest).map fun read => (.char char :: read.1, read.2)

/-- Joins a high and a low unit to one character. A unit that is half of a pair alone is refused. -/
def join? : List Piece → Option (List Char)
  | [] => some []
  | .char char :: rest => (join? rest).map (char :: ·)
  | .unit high :: .unit low :: rest =>
      if 0xD800 ≤ high ∧ high < 0xDC00 then
        if 0xDC00 ≤ low ∧ low < 0xE000 then
          (join? rest).map (Char.ofNat (0x10000 + (high - 0xD800) * 0x400 + (low - 0xDC00)) :: ·)
        else none
      else if 0xDC00 ≤ high ∧ high < 0xE000 then none
      else (join? (.unit low :: rest)).map (Char.ofNat high :: ·)
  | .unit alone :: rest =>
      if 0xD800 ≤ alone ∧ alone < 0xE000 then none
      else (join? rest).map (Char.ofNat alone :: ·)

def text (manner : Manner) (chars : List Char) : Option (String × List Char) := do
  let (read, rest) ← pieces chars
  match manner, join? read with
  | _, some content => return (String.ofList content, rest)
  | .loose, none => return ("", rest)
  | .strict, none => none

def digits (chars : List Char) : List Nat × List Char :=
  (chars.takeWhile Char.isDigit |>.map fun char => char.toNat - '0'.toNat,
    chars.dropWhile Char.isDigit)

def wholeDigits? (chars : List Char) : Option (List Nat × List Char) :=
  match digits chars with
  | ([], _) => none
  | (0 :: _ :: _, _) => none
  | read => some read

def fractionDigits? : List Char → Option (List Nat × List Char)
  | '.' :: rest =>
      match digits rest with
      | ([], _) => none
      | read => some read
  | rest => some ([], rest)

def signed : List Char → Bool × List Char
  | '-' :: rest => (true, rest)
  | '+' :: rest => (false, rest)
  | rest => (false, rest)

def exponent? : List Char → Option (Option Int × List Char)
  | char :: rest =>
      if char == 'e' || char == 'E' then
        let (negative, rest) := signed rest
        match digits rest with
        | ([], _) => none
        | (read, rest) =>
            let magnitude : Nat := read.foldl (fun total digit => total * 10 + digit) 0
            some (some (if negative then -(magnitude : Int) else (magnitude : Int)), rest)
      else some (none, char :: rest)
  | [] => some (none, [])

def numberLiteral? (chars : List Char) : Option (NumberLiteral × List Char) := do
  let (negative, rest) := match chars with
    | '-' :: rest => (true, rest)
    | rest => (false, rest)
  let (whole, rest) ← wholeDigits? rest
  let (fraction, rest) ← fractionDigits? rest
  let (exponent, rest) ← exponent? rest
  return (⟨negative, whole, fraction, exponent⟩, rest)

def number (manner : Manner) (chars : List Char) : Option (Json × List Char) := do
  let (literal, rest) ← numberLiteral? chars
  match manner, literal.value? with
  | _, some value => return (value, rest)
  | .loose, none => return (.null, rest)
  | .strict, none => none

def key? (manner : Manner) (chars : List Char) : Option (String × List Char) :=
  match skipBlank chars with
  | '"' :: rest => do
      let (name, rest) ← text manner rest
      match skipBlank rest with
      | ':' :: rest => return (name, rest)
      | _ => none
  | _ => none

mutual

/-- The first argument bounds the number of nested and neighbouring values. -/
def value (manner : Manner) : Nat → List Char → Option (Json × List Char)
  | 0, _ => none
  | fuel + 1, chars =>
      match skipBlank chars with
      | 'n' :: 'u' :: 'l' :: 'l' :: rest => some (.null, rest)
      | 't' :: 'r' :: 'u' :: 'e' :: rest => some (.bool true, rest)
      | 'f' :: 'a' :: 'l' :: 's' :: 'e' :: rest => some (.bool false, rest)
      | '"' :: rest => (text manner rest).map fun read => (.string read.1, read.2)
      | '[' :: rest =>
          match skipBlank rest with
          | ']' :: rest => some (.array [], rest)
          | rest => (items manner fuel rest).map fun read => (.array read.1, read.2)
      | '\x7b' :: rest =>
          match skipBlank rest with
          | '\x7d' :: rest => some (.object [], rest)
          | rest => (members manner fuel rest).map fun read => (.object (Keyed.ofList read.1), read.2)
      | rest => number manner rest

def items (manner : Manner) : Nat → List Char → Option (List Json × List Char)
  | 0, _ => none
  | fuel + 1, chars =>
      match value manner fuel chars with
      | none => none
      | some (first, rest) =>
          match skipBlank rest with
          | ']' :: rest => some ([first], rest)
          | ',' :: rest => (items manner fuel rest).map fun read => (first :: read.1, read.2)
          | _ => none

def members (manner : Manner) : Nat → List Char → Option (List (String × Json) × List Char)
  | 0, _ => none
  | fuel + 1, chars =>
      match key? manner chars with
      | none => none
      | some (key, rest) =>
          match value manner fuel rest with
          | none => none
          | some (first, rest) =>
              match skipBlank rest with
              | '\x7d' :: rest => some ([(key, first)], rest)
              | ',' :: rest =>
                  (members manner fuel rest).map fun read => ((key, first) :: read.1, read.2)
              | _ => none

end

def fuelFor (chars : List Char) : Nat :=
  2 * chars.length + 2

def isFinished (chars : List Char) : Bool :=
  (skipBlank chars).isEmpty

end SharedDocument.Json.Reader

namespace SharedDocument.Json

open Reader

def depthLimit : Nat := 127

/-- Reads a text that holds one JSON value, nested no deeper than the limit, and nothing after it
but blanks. Of several members with one name the last counts. -/
def parse? (input : String) : Option Json :=
  match value .strict (fuelFor input.toList) input.toList with
  | some (read, rest) => if isFinished rest && read.depth ≤ depthLimit then some read else none
  | none => none

end SharedDocument.Json
