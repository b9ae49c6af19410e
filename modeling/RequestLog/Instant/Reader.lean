import RequestLog.Instant.Basic

/-!
# Reading an instant

An instant is given as a date, a time with an optional fraction, and an offset
from universal time, all in fixed columns. Faults are named in the order of the
text: the date has to exist before the time is looked at, and the time before
the offset. Digits of the fraction behind the ninth carry no meaning.
-/

namespace RequestLog.Instant

inductive ReadError where
  | tooShort
  | invalid
  | outOfRange
  | trailing
  deriving DecidableEq

def ReadError.message : ReadError → String
  | .tooShort => "premature end of input"
  | .invalid => "input contains invalid characters"
  | .outOfRange => "input is out of range"
  | .trailing => "trailing input"

/-- Two digits and what follows them. Places are counted in bytes, so a character of
more than one byte fills both, and is no digit. -/
def twoDigits : List Char → Except ReadError (Nat × List Char)
  | a :: b :: rest =>
      if a.isDigit && b.isDigit then .ok (Decimal.spelled [a, b], rest)
      else .error .invalid
  | [c] => .error (if c.utf8Size < 2 then .tooShort else .invalid)
  | [] => .error .tooShort

def skipChar (expected : Char → Bool) : List Char → Except ReadError (List Char)
  | c :: rest => if expected c then .ok rest else .error .invalid
  | [] => .error .tooShort

/-- Days since 1970 of a date in ten columns. -/
def readDate (cs : List Char) : Except ReadError (Int × List Char) := do
  let (century, cs) ← twoDigits cs
  let (year, cs) ← twoDigits cs
  let cs ← skipChar (· = '-') cs
  let (month, cs) ← twoDigits cs
  let cs ← skipChar (· = '-') cs
  let (day, cs) ← twoDigits cs
  let date : Date := ⟨(100 * century + year : Nat), month, day⟩
  if date.exists then return (date.toDays, cs) else throw .outOfRange

def fractionNanos (ds : List Char) : Nat :=
  let ds := ds.take 9
  Decimal.spelled ds * Decimal.tens (9 - ds.length)

def readFraction : List Char → Except ReadError (Nat × List Char)
  | '.' :: rest =>
      let ds := rest.takeWhile Char.isDigit
      let rest := rest.dropWhile Char.isDigit
      if ds.isEmpty then .error (if rest.isEmpty then .tooShort else .invalid)
      else .ok (fractionNanos ds, rest)
  | cs => .ok (0, cs)

/-- Seconds of the day and nanoseconds; second 60 lengthens the one before it. -/
def readTime (cs : List Char) : Except ReadError ((Nat × Nat) × List Char) := do
  let (hour, cs) ← twoDigits cs
  let cs ← skipChar (· = ':') cs
  let (minute, cs) ← twoDigits cs
  let cs ← skipChar (· = ':') cs
  let (second, cs) ← twoDigits cs
  let (nanos, cs) ← readFraction cs
  let (second, nanos) := if second = 60 then (59, nanos + 1000000000) else (second, nanos)
  if hour < 24 ∧ minute < 60 ∧ second < 60 then
    return ((3600 * hour + 60 * minute + second, nanos), cs)
  else throw .outOfRange

/-- Minutes of an offset; a tens digit above five is a number, but not of minutes. -/
def readOffsetMinutes (cs : List Char) : Except ReadError (Nat × List Char) := do
  let (minutes, cs) ← twoDigits cs
  if minutes < 60 then return (minutes, cs) else throw .outOfRange

/-- Seconds east of universal time. -/
def readOffset (cs : List Char) : Except ReadError (Int × List Char) := do
  match cs with
  | [] => throw .tooShort
  | c :: rest =>
      if c = 'Z' || c = 'z' then return (0, rest)
      else if c = '+' || c = '-' || c = '\u2212' then
        let (hours, rest) ← twoDigits rest
        let rest ← skipChar (· = ':') rest
        let (minutes, rest) ← readOffsetMinutes rest
        let east : Int := (3600 * hours + 60 * minutes : Nat)
        return (if c = '+' then east else -east, rest)
      else throw .invalid

/-- The fewest bytes that a date and a time take. -/
def minimumBytes : Nat := 19

def readChars (cs : List Char) : Except ReadError Instant := do
  let (days, cs) ← readDate cs
  let cs ← skipChar (fun c => c = 'T' || c = 't' || c = ' ') cs
  let ((second, nanos), cs) ← readTime cs
  let (east, cs) ← readOffset cs
  if !cs.isEmpty then throw .trailing
  else if 86400 ≤ east.natAbs then throw .outOfRange
  else return ⟨days * 86400 + second - east, nanos⟩

def read (text : String) : Except ReadError Instant :=
  if text.utf8ByteSize < minimumBytes then .error .tooShort
  else readChars text.toList

end RequestLog.Instant
