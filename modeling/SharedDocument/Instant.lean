/-! Instants of the proleptic Gregorian calendar, in universal time. A leap second is the second
59 of its minute with a billion nanoseconds or more. -/

namespace SharedDocument

/-- Seconds count from the start of 1970. -/
structure Instant where
  seconds : Int
  nanos : Nat
deriving DecidableEq, Repr, Inhabited

structure CivilDate where
  year : Int
  month : Nat
  day : Nat
deriving DecidableEq, Repr

namespace CivilDate

def isLeapYear (year : Int) : Bool :=
  year % 4 == 0 && (year % 100 != 0 || year % 400 == 0)

def monthLength (year : Int) : Nat → Nat
  | 2 => if isLeapYear year then 29 else 28
  | 4 => 30
  | 6 => 30
  | 9 => 30
  | 11 => 30
  | _ => 31

def leastYear : Int := -262143

def greatestYear : Int := 262142

def hasYearInRange (date : CivilDate) : Bool :=
  leastYear ≤ date.year && date.year ≤ greatestYear

def isValid (date : CivilDate) : Bool :=
  1 ≤ date.month && date.month ≤ 12 && 1 ≤ date.day &&
    date.day ≤ monthLength date.year date.month && date.hasYearInRange

/-- Days since 1 January 1970. Years are counted from March, so that a leap day ends its year, and
in eras of 400 years, which all have 146097 days. -/
def toDays (date : CivilDate) : Int :=
  let year := if date.month ≤ 2 then date.year - 1 else date.year
  let yearOfEra := year % 400
  let month : Int := ((date.month + 9) % 12 : Nat)
  let dayOfYear := (153 * month + 2) / 5 + date.day - 1
  let dayOfEra := yearOfEra * 365 + yearOfEra / 4 - yearOfEra / 100 + dayOfYear
  year / 400 * 146097 + dayOfEra - 719468

def ofDays (days : Int) : CivilDate :=
  let shifted := days + 719468
  let dayOfEra := shifted % 146097
  let yearOfEra := (dayOfEra - dayOfEra / 1460 + dayOfEra / 36524 - dayOfEra / 146096) / 365
  let dayOfYear := dayOfEra - (365 * yearOfEra + yearOfEra / 4 - yearOfEra / 100)
  let month := (5 * dayOfYear + 2) / 153
  let day := dayOfYear - (153 * month + 2) / 5 + 1
  let year := yearOfEra + shifted / 146097 * 400
  if month < 10 then ⟨year, (month + 3).toNat, day.toNat⟩ else ⟨year + 1, (month - 9).toNat, day.toNat⟩

end CivilDate

namespace Instant

def date (instant : Instant) : CivilDate :=
  CivilDate.ofDays (instant.seconds / 86400)

def secondOfDay (instant : Instant) : Nat :=
  (instant.seconds % 86400).toNat

end Instant

end SharedDocument
