import RequestLog.Json.Fault

/-!
# Numbers in JSON text

A number without point and exponent that fits 64 bits is an integer. Every other
number is a double, and its value is not the nearest one to the text: digits are
collected in a 64-bit word until the next one would not fit, the word is
converted, and one multiplication or division by a power of ten follows. The
exact rule is part of the format, because a text and the value it was written
from are compared after reading.

The shape of a number is scanned first (`scanNumber`) and its value computed
afterwards (`Literal.value`), so that a number which is too large is a fault of
the value and not of the text.
-/

namespace RequestLog.Json

/-- The shape of a number: its digits, and its exponent with a sign. -/
structure Literal where
  negative : Bool
  whole : List Char
  fraction : Option (List Char)
  exponent : Option (Bool × List Char)

/-- The largest value of the word that digits are collected in. -/
def wordMax : Nat := Decimal.twos 64 - 1

/-- Digits taken while they fit, and how many are left over. -/
def collect : Nat → List Char → Nat × Nat
  | n, [] => (n, 0)
  | n, d :: ds =>
      let next := 10 * n + Decimal.digitValue d
      if wordMax < next then (n, ds.length + 1) else collect next ds

def powerOfTen (e : Nat) : Float := Decimal.Scientific.toFloat ⟨false, 1, e⟩

/--
A word times a power of ten in double arithmetic. Powers below `1e-308` are
reached in steps; after three of them nothing is left of any word.
-/
def scaled (x : Float) (e : Int) : Except Fault Float :=
  go 3 x e
where
  go (steps : Nat) (x : Float) (e : Int) : Except Fault Float :=
    if x == 0 then .ok x
    else if 308 < e then .error .numberOutOfRange
    else if 0 ≤ e then
      let y := x * powerOfTen e.toNat
      if y.isInf then .error .numberOutOfRange else .ok y
    else if -308 ≤ e then .ok (x / powerOfTen (-e).toNat)
    else match steps with
      | 0 => .ok 0
      | steps + 1 => go steps (x / powerOfTen 308) (e + 308)

/-- The largest exponent that is computed with; a longer one is out of range. -/
def exponentMax : Nat := Decimal.twos 31 - 1

namespace Literal

/-- The word and the decimal exponent that the digits leave. -/
def significand (l : Literal) : Nat × Int :=
  let (word, dropped) := collect 0 l.whole
  match l.fraction with
  | none => (word, dropped)
  | some ds =>
      let (word, left) := collect word ds
      (word, (dropped : Int) - (ds.length - left : Nat))

def magnitude (l : Literal) : Except Fault Float :=
  let (word, e) := l.significand
  match l.exponent with
  | none => scaled (Decimal.ofInt word) e
  | some (down, ds) =>
      let n := Decimal.spelled ds
      if exponentMax < n then
        if word = 0 || down then .ok 0 else .error .numberOutOfRange
      else scaled (Decimal.ofInt word) (if down then e - n else e + n)

def value (l : Literal) : Except Fault Number :=
  let (word, left) := collect 0 l.whole
  let signed (x : Float) : Number := .float (if l.negative then -x else x)
  if l.fraction.isNone && l.exponent.isNone && left = 0 then
    if !l.negative then .ok (.int word)
    else if word = 0 || Decimal.twos 63 < word then .ok (signed (Decimal.ofInt word))
    else .ok (.int (-word))
  else l.magnitude.map signed

end Literal

/-! ## Scanning -/

/-- Why a number's shape is incomplete: the text ended, or something else follows. -/
def incomplete : List Char → Fault
  | [] => .endInValue
  | _ => .invalidNumber

/-- Digits before the point. Only a lone zero may begin with one. -/
def scanWhole (cs : List Char) : Except Fault (List Char × List Char) :=
  let ds := cs.takeWhile Char.isDigit
  let rest := cs.dropWhile Char.isDigit
  match ds with
  | [] => .error (incomplete rest)
  | '0' :: _ :: _ => .error .invalidNumber
  | _ => .ok (ds, rest)

def scanFraction (cs : List Char) :
    Except Fault (Option (List Char) × List Char) :=
  match cs with
  | '.' :: more =>
      let ds := more.takeWhile Char.isDigit
      let rest := more.dropWhile Char.isDigit
      if ds.isEmpty then .error (incomplete rest) else .ok (some ds, rest)
  | _ => .ok (none, cs)

def scanExponent (cs : List Char) :
    Except Fault (Option (Bool × List Char) × List Char) :=
  match cs with
  | c :: more =>
      if c = 'e' || c = 'E' then
        let (down, more) := Decimal.splitSign more
        let ds := more.takeWhile Char.isDigit
        let rest := more.dropWhile Char.isDigit
        if ds.isEmpty then .error (incomplete rest) else .ok (some (down, ds), rest)
      else .ok (none, cs)
  | [] => .ok (none, [])

def scanUnsigned (negative : Bool) (cs : List Char) :
    Except Fault (Literal × List Char) :=
  match scanWhole cs with
  | .error f => .error f
  | .ok (whole, cs) =>
      match scanFraction cs with
      | .error f => .error f
      | .ok (fraction, cs) =>
          match scanExponent cs with
          | .error f => .error f
          | .ok (exponent, cs) => .ok (⟨negative, whole, fraction, exponent⟩, cs)

def scanNumber : List Char → Except Fault (Literal × List Char)
  | '-' :: rest => scanUnsigned true rest
  | cs => scanUnsigned false cs

end RequestLog.Json
