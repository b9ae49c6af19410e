/-!
# The calendar

Days are counted from the first of January 1970. The count and the date
determine each other: years are grouped into eras of 400, which all have 146097
days, and a year is taken to begin in March so that the leap day is its last.
Dates run in both directions without bound.
-/

namespace RequestLog.Instant

structure Date where
  year : Int
  month : Nat
  day : Nat
  deriving DecidableEq

/-- Days from the first of March of year 0 to the first of January 1970. -/
def epochOffset : Int := 719468

def daysPerEra : Int := 146097

def isLeapYear (y : Int) : Bool :=
  y % 4 = 0 && (y % 100 ≠ 0 || y % 400 = 0)

def daysInMonth (y : Int) (m : Nat) : Nat :=
  if m = 2 then (if isLeapYear y then 29 else 28)
  else if m = 4 || m = 6 || m = 9 || m = 11 then 30
  else 31

def Date.exists (d : Date) : Bool :=
  1 ≤ d.month && d.month ≤ 12 && 1 ≤ d.day && d.day ≤ daysInMonth d.year d.month

/-- Months since March. -/
def monthOfYear (m : Nat) : Nat := (m + 9) % 12

/-- Days from the first of March to the first of a month. -/
def daysBeforeMonth (k : Nat) : Nat := (153 * k + 2) / 5

def Date.toDays (d : Date) : Int :=
  let y : Int := if d.month ≤ 2 then d.year - 1 else d.year
  let era := y / 400
  let yearOfEra := y % 400
  let dayOfYear : Int := daysBeforeMonth (monthOfYear d.month) + (d.day - 1 : Int)
  let dayOfEra := yearOfEra * 365 + yearOfEra / 4 - yearOfEra / 100 + dayOfYear
  era * daysPerEra + dayOfEra - epochOffset

def Date.ofDays (days : Int) : Date :=
  let z := days + epochOffset
  let era := z / daysPerEra
  let dayOfEra := z % daysPerEra
  let yearOfEra :=
    (dayOfEra - dayOfEra / 1460 + dayOfEra / 36524 - dayOfEra / 146096) / 365
  let dayOfYear := (dayOfEra - (365 * yearOfEra + yearOfEra / 4 - yearOfEra / 100)).toNat
  let k := (5 * dayOfYear + 2) / 153
  let day := dayOfYear - daysBeforeMonth k + 1
  let month := if k < 10 then k + 3 else k - 9
  let year := yearOfEra + era * 400 + (if month ≤ 2 then 1 else 0)
  ⟨year, month, day⟩

end RequestLog.Instant
