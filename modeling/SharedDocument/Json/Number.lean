import SharedDocument.Json

/-! Number literals. An integer literal between the least signed and the greatest unsigned
64-bit integer keeps its value; every other literal becomes a float. Its leading digits are read
into a 64-bit significand, which is then scaled by a power of ten in float arithmetic. -/

namespace SharedDocument.Json

structure NumberLiteral where
  negative : Bool
  whole : List Nat
  fraction : List Nat
  exponent : Option Int

namespace NumberLiteral

def significandLimit : Nat := 0x10000000000000000

/-- Appends digits as long as the significand stays below the limit; returns the digits that are
left over. -/
def absorb (significand : Nat) : List Nat → Nat × List Nat
  | [] => (significand, [])
  | digit :: rest =>
      if significand * 10 + digit < significandLimit then absorb (significand * 10 + digit) rest
      else (significand, digit :: rest)

def tenTo (exponent : Nat) : Float :=
  Float.ofScientific 1 false exponent

/-- Powers of ten up to 308 are floats. A smaller quotient is formed in two steps, and no
significand survives a division by more than `10 ^ 616`. A product that is too large has no
value. -/
def scale (significand : Nat) (exponent : Int) : Option Float :=
  let start := (UInt64.ofNat significand).toFloat
  if 0 ≤ exponent then
    if exponent ≤ 308 then
      let product := start * tenTo exponent.toNat
      if product.isInf then none else some product
    else if significand = 0 then some start
    else none
  else
    let divisor := (-exponent).toNat
    if divisor ≤ 308 then some (start / tenTo divisor)
    else if divisor ≤ 616 then some (start / tenTo 308 / tenTo (divisor - 308))
    else some 0

def float? (literal : NumberLiteral) : Option Float :=
  let (wholePart, dropped) := absorb 0 literal.whole
  let (significand, ignored) := absorb wholePart literal.fraction
  let shift : Int := dropped.length - (literal.fraction.length - ignored.length : Nat)
  (scale significand (shift + literal.exponent.getD 0)).map fun value =>
    if literal.negative then -value else value

/-- The value of an integer literal that is kept as an integer. A negative zero is not. -/
def integer? (literal : NumberLiteral) : Option Int :=
  if literal.fraction.isEmpty && literal.exponent.isNone then
    match absorb 0 literal.whole with
    | (magnitude, []) =>
        if literal.negative then
          if 0 < magnitude ∧ magnitude ≤ 0x8000000000000000 then some (-(magnitude : Int)) else none
        else some magnitude
    | _ => none
  else none

def value? (literal : NumberLiteral) : Option Json :=
  match literal.integer? with
  | some value => some (.int value)
  | none => literal.float?.map .float

end NumberLiteral

end SharedDocument.Json
