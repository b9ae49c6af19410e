import RequestLog.Decimal.Layout
import RequestLog.Instant.Calendar

/-!
# Instants

An instant is a second of coordinated universal time with its nanoseconds. The
nanoseconds of a leap second run from one to two thousand million behind second
59 of its minute. Instants are ordered by second, then by nanosecond.

Stores that know no instants compare microseconds since 1970 instead, rounded
down (`Instant.micros`).
-/

namespace RequestLog

structure Instant where
  seconds : Int
  nanos : Nat
  deriving DecidableEq, BEq, Inhabited

namespace Instant

def le (a b : Instant) : Bool :=
  a.seconds < b.seconds || (a.seconds = b.seconds && a.nanos ≤ b.nanos)

/-- Microseconds since 1970. -/
def micros (t : Instant) : Int := t.seconds * 1000000 + (t.nanos / 1000 : Nat)

/-- The milliseconds since 1970 that name an instant. -/
def millisRange : Int × Int := (-8334601228800000, 8210266876799999)

def ofMillis? (ms : Int) : Option Instant :=
  if millisRange.1 ≤ ms && ms ≤ millisRange.2 then
    some ⟨ms / 1000, (ms % 1000).toNat * 1000000⟩
  else none

/-! ## Written forms -/

/-- A year has four digits; before year 0 and after 9999 it has a sign too. -/
def yearText (y : Int) : List Char :=
  if 0 ≤ y && y ≤ 9999 then Decimal.padded 4 y.natAbs
  else (if y < 0 then '-' else '+') :: Decimal.padded 4 y.natAbs

/-- A fraction of 0, 3, 6 or 9 digits, the fewest that lose nothing. -/
def fractionText (nanos : Nat) : List Char :=
  if nanos = 0 then []
  else if nanos % 1000000 = 0 then '.' :: Decimal.padded 3 (nanos / 1000000)
  else if nanos % 1000 = 0 then '.' :: Decimal.padded 6 (nanos / 1000)
  else '.' :: Decimal.padded 9 nanos

/-- Date and time with a separator between them; a leap second is second 60. -/
def write (separator : Char) (t : Instant) : List Char :=
  let date := Date.ofDays (t.seconds / 86400)
  let second := (t.seconds % 86400).toNat
  let leap := t.nanos / 1000000000
  yearText date.year ++ '-' :: Decimal.padded 2 date.month
    ++ '-' :: Decimal.padded 2 date.day
    ++ separator :: Decimal.padded 2 (second / 3600)
    ++ ':' :: Decimal.padded 2 (second / 60 % 60)
    ++ ':' :: Decimal.padded 2 (second % 60 + leap)
    ++ fractionText (t.nanos % 1000000000)

/-- The form used in data. -/
def text (t : Instant) : String := String.ofList (t.write 'T' ++ ['Z'])

/-- The form used in messages. -/
def message (t : Instant) : String := String.ofList (t.write ' ') ++ " UTC"

end Instant

end RequestLog
