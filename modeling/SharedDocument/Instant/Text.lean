import SharedDocument.Instant

/-! Instants as text: `2024-02-29T23:59:60.5+01:00`. Reading admits one-digit fields, blanks
before a field and a zone without its colon; writing is in universal time and uniform. -/

namespace SharedDocument.Instant

def isSpace (char : Char) : Bool :=
  let code := char.toNat
  (9 ≤ code && code ≤ 13) || code == 0x20 || code == 0x85 || code == 0xA0 || code == 0x1680 ||
    (0x2000 ≤ code && code ≤ 0x200A) || code == 0x2028 || code == 0x2029 || code == 0x202F ||
    code == 0x205F || code == 0x3000

def skipSpace (chars : List Char) : List Char :=
  chars.dropWhile isSpace

def digitValue (char : Char) : Nat :=
  char.toNat - '0'.toNat

def digitsValue (digits : List Char) : Nat :=
  digits.foldl (fun total digit => total * 10 + digitValue digit) 0

def digits? (limit : Option Nat) (chars : List Char) : Option (Nat × List Char) :=
  let run := chars.takeWhile Char.isDigit
  let taken := match limit with
    | some count => run.take count
    | none => run
  if taken.isEmpty then none else some (digitsValue taken, chars.drop taken.length)

/-- A year without a sign has at most four digits. -/
def year? (chars : List Char) : Option (Int × List Char) :=
  match skipSpace chars with
  | '-' :: rest => (digits? none rest).map fun read => (-(read.1 : Int), read.2)
  | '+' :: rest => (digits? none rest).map fun read => ((read.1 : Int), read.2)
  | rest => (digits? (some 4) rest).map fun read => ((read.1 : Int), read.2)

def field? (chars : List Char) : Option (Nat × List Char) :=
  digits? (some 2) (skipSpace chars)

def mark? (mark : Char) (chars : List Char) : Option (List Char) :=
  match skipSpace chars with
  | char :: rest => if char = mark then some rest else none
  | [] => none

def separator? : List Char → Option (List Char)
  | 'T' :: rest => some rest
  | 't' :: rest => some rest
  | ' ' :: rest => some rest
  | _ => none

/-- Nanoseconds after the decimal point; digits after the ninth are dropped. -/
def fraction? : List Char → Option (Nat × List Char)
  | '.' :: rest =>
      let run := rest.takeWhile Char.isDigit
      if run.isEmpty then none
      else
        let taken := run.take 9
        some (digitsValue (taken ++ List.replicate (9 - taken.length) '0'), rest.drop run.length)
  | rest => some (0, rest)

def zoneSign? : List Char → Option (Int × List Char)
  | '+' :: rest => some (1, rest)
  | '-' :: rest => some (-1, rest)
  | '\u2212' :: rest => some (-1, rest)
  | _ => none

def twoDigits? : List Char → Option (Nat × List Char)
  | tens :: ones :: rest =>
      if tens.isDigit && ones.isDigit then some (digitsValue [tens, ones], rest) else none
  | _ => none

def zone? (chars : List Char) : Option (Int × List Char) :=
  match chars with
  | 'Z' :: rest => some (0, rest)
  | 'z' :: rest => some (0, rest)
  | first :: second :: third :: rest =>
      if String.ofList [first.toUpper, second.toUpper, third.toUpper] = "UTC" then some (0, rest)
      else do
        let (sign, rest) ← zoneSign? chars
        let (hours, rest) ← twoDigits? rest
        let (minutes, rest) ← twoDigits? (rest.dropWhile fun char => char = ':' || isSpace char)
        if minutes < 60 then return (sign * (hours * 3600 + minutes * 60 : Nat), rest) else none
  | _ => none

/-- Reads an instant and the blanks after it. The date must exist, both in its zone and in
universal time. -/
def parse? (text : String) : Option Instant := do
  let (year, rest) ← year? text.toList
  let rest ← mark? '-' rest
  let (month, rest) ← field? rest
  let rest ← mark? '-' rest
  let (day, rest) ← field? rest
  let rest ← separator? rest
  let (hour, rest) ← field? rest
  let rest ← mark? ':' rest
  let (minute, rest) ← field? rest
  let rest ← mark? ':' rest
  let (second, rest) ← field? rest
  let (nanos, rest) ← fraction? rest
  let (zone, rest) ← zone? (skipSpace rest)
  let date : CivilDate := ⟨year, month, day⟩
  let leap := second == 60
  let secondOfDay : Int := (hour * 3600 + minute * 60 + (if leap then 59 else second) : Nat)
  let instant : Instant :=
    ⟨date.toDays * 86400 + secondOfDay - zone, if leap then nanos + 1000000000 else nanos⟩
  if date.isValid && hour < 24 && minute < 60 && second ≤ 60 && (-86400 < zone && zone < 86400) &&
      instant.date.hasYearInRange && (skipSpace rest).isEmpty then
    return instant
  else none

def padded (width number : Nat) : String :=
  let digits := Nat.toDigits 10 number
  String.ofList (List.replicate (width - digits.length) '0' ++ digits)

/-- Years of four digits have no sign, others always. -/
def yearText (year : Int) : String :=
  if 0 ≤ year then
    if year ≤ 9999 then padded 4 year.toNat else "+" ++ padded 4 year.toNat
  else "-" ++ padded 4 (-year).toNat

def upToSeconds (instant : Instant) : String :=
  let date := instant.date
  let second := instant.secondOfDay
  let shown := second % 60 + instant.nanos / 1000000000
  yearText date.year ++ "-" ++ padded 2 date.month ++ "-" ++ padded 2 date.day ++ "T" ++
    padded 2 (second / 3600) ++ ":" ++ padded 2 (second / 60 % 60) ++ ":" ++ padded 2 shown

/-- No fraction, or the shortest exact one of 3, 6 or 9 digits. -/
def text (instant : Instant) : String :=
  let nanos := instant.nanos % 1000000000
  let fraction :=
    if nanos = 0 then ""
    else if nanos % 1000000 = 0 then "." ++ padded 3 (nanos / 1000000)
    else if nanos % 1000 = 0 then "." ++ padded 6 (nanos / 1000)
    else "." ++ padded 9 nanos
  instant.upToSeconds ++ fraction ++ "Z"

/-- Always three fraction digits, cut off. -/
def textInMillis (instant : Instant) : String :=
  instant.upToSeconds ++ "." ++ padded 3 (instant.nanos % 1000000000 / 1000000) ++ "Z"

end SharedDocument.Instant
