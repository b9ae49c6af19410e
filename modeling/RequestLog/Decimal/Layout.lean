import RequestLog.Decimal.Nearest
import RequestLog.Decimal.Shortest
import RequestLog.Text.Search

/-!
# How a double is written and read

The digits of a double are settled by `Parts.shortest`; what remains is the
layout: where the point stands, when an exponent is used instead, and how
integral values end. Each output has its own `Layout`: SQL literals are always
positional and integral ones have no point, JSON keeps a point and turns to an
exponent outside of a window.

Reading accepts a sign, digits with an optional point and exponent, or one of
the words for infinity and not-a-number in any case, and rounds once.
-/

namespace RequestLog.Decimal

/-- Choices of a written form. The window bounds the exponent of the first digit. -/
structure Layout where
  /-- Exponents written positionally; all of them when absent. -/
  window : Option (Int × Int)
  /-- Whether an integral value ends in `.0`. -/
  keepsPoint : Bool

/-- Numbers inside SQL text: positional at any size, integral ones bare. -/
def Layout.sql : Layout := ⟨none, false⟩

/-- Numbers inside JSON text: a point is kept, extreme ones take an exponent. -/
def Layout.json : Layout := ⟨some (-5, 15), true⟩

def zeros (n : Nat) : List Char := List.replicate n '0'

namespace Digits

def positional (d : Digits) (keepsPoint : Bool) : List Char :=
  let tail := if keepsPoint then ['.', '0'] else []
  if d.point ≤ 0 then
    '0' :: '.' :: zeros (-d.point).toNat ++ d.digits
  else
    let whole := d.point.toNat
    if d.digits.length ≤ whole then
      d.digits ++ zeros (whole - d.digits.length) ++ tail
    else d.digits.take whole ++ '.' :: d.digits.drop whole

/-- One digit before the point, and an exponent that always has a sign. -/
def scientific (d : Digits) : List Char :=
  let e := d.point - 1
  let exponent := (if e < 0 then ['-'] else ['+']) ++ Nat.toDigits 10 e.natAbs
  match d.digits with
  | [] => 'e' :: exponent
  | [x] => x :: 'e' :: exponent
  | x :: rest => x :: '.' :: rest ++ 'e' :: exponent

def write (layout : Layout) (d : Digits) : List Char :=
  match layout.window with
  | none => d.positional layout.keepsPoint
  | some (low, high) =>
      let e := d.point - 1
      if low ≤ e ∧ e ≤ high then d.positional layout.keepsPoint else d.scientific

end Digits

/-- Text of a double; the words for what is not finite are those of SQL literals. -/
def writeFloat (layout : Layout) (x : Float) : String :=
  let bits := x.toBits.toNat
  let sign := if bits / signBit % 2 = 1 then ['-'] else []
  let rest := bits % signBit
  if infinityBits < rest then "NaN"
  else if rest = infinityBits then String.ofList (sign ++ ['i', 'n', 'f'])
  else if rest = 0 then
    String.ofList (sign ++ Digits.positional ⟨['0'], 1⟩ layout.keepsPoint)
  else String.ofList (sign ++ (Parts.ofBits rest).shortest.write layout)

def sqlText (x : Float) : String := writeFloat .sql x

def jsonText (x : Float) : String := writeFloat .json x

/-- A finite double with a fixed number of places, a half going to even. -/
def fixedText (places : Nat) (x : Float) : String :=
  let bits := x.toBits.toNat
  let rest := bits % signBit
  if infinityBits ≤ rest then sqlText x
  else
    let p := Parts.ofBits rest
    let num := p.significand * tens places
    let units :=
      if p.scale < 0 then roundHalfEven num (twos (-p.scale).toNat)
      else num * twos p.scale.toNat
    let text := Nat.toDigits 10 units
    let padded := zeros (places + 1 - text.length) ++ text
    let whole := padded.length - places
    let sign := if bits / signBit % 2 = 1 then ['-'] else []
    let point := if places = 0 then [] else ['.']
    String.ofList (sign ++ padded.take whole ++ point ++ padded.drop whole)

def intText (i : Int) : String :=
  String.ofList ((if i < 0 then ['-'] else []) ++ Nat.toDigits 10 i.natAbs)

/-- Decimal text of a natural number, with zeros in front up to a width. -/
def padded (width n : Nat) : List Char :=
  let ds := Nat.toDigits 10 n
  zeros (width - ds.length) ++ ds

/-! ## Reading -/

def digitValue (c : Char) : Nat := c.toNat - '0'.toNat

def spelled (ds : List Char) : Nat :=
  ds.foldl (fun n c => 10 * n + digitValue c) 0

def splitSign : List Char → Bool × List Char
  | '+' :: rest => (false, rest)
  | '-' :: rest => (true, rest)
  | cs => (false, cs)

/-- An exponent part: nothing at all, or `e`, an optional sign and digits. -/
def readExponent : List Char → Option Int
  | [] => some 0
  | c :: rest =>
      if c = 'e' || c = 'E' then
        let (negative, ds) := splitSign rest
        if ds.isEmpty || !ds.all Char.isDigit then none
        else
          let n : Int := spelled ds
          some (if negative then -n else n)
      else none

/-- Digits with an optional point, at least one digit, and an optional exponent. -/
def readScientific (negative : Bool) (cs : List Char) : Option Scientific :=
  let whole := cs.takeWhile Char.isDigit
  let rest := cs.dropWhile Char.isDigit
  let (fraction, rest) := match rest with
    | '.' :: more => (more.takeWhile Char.isDigit, more.dropWhile Char.isDigit)
    | _ => ([], rest)
  if whole.isEmpty && fraction.isEmpty then none
  else (readExponent rest).map fun e =>
    ⟨negative, spelled (whole ++ fraction), e - fraction.length⟩

def readFloat (text : String) : Option Float :=
  let (negative, body) := splitSign text.toList
  let word := body.map Char.toLower
  let signed (x : Float) : Float := if negative then -x else x
  if word = "nan".toList then some (signed (0.0 / 0.0))
  else if word = "inf".toList || word = "infinity".toList then
    some (signed (Float.ofBits (UInt64.ofNat infinityBits)))
  else (readScientific negative body).map Scientific.toFloat

/-- The integer a text spells: an optional sign and digits, nothing else. -/
def readInt (text : String) : Option Int :=
  let (negative, ds) := splitSign text.toList
  if ds.isEmpty || !ds.all Char.isDigit then none
  else
    let n : Int := spelled ds
    some (if negative then -n else n)

def fitsSigned (bits : Nat) (i : Int) : Bool :=
  -(twos (bits - 1) : Int) ≤ i && i < twos (bits - 1)

def readInt64 (text : String) : Option Int :=
  (readInt text).filter (fitsSigned 64)

end RequestLog.Decimal
