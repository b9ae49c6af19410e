import RequestLog.Decimal.Layout
import RequestLog.Decimal.Whole

/-!
# Values of the embedded row store

A value is absent, an integer of 64 bits, a double or a text, whatever its column
was declared as. Values of all kinds are ordered: absent ones come first, then
numbers by their exact value, then texts by code points. A number is taken out of
a text by reading as much of its front as spells one.

The engine also has values that are bytes. No column is declared for them and nothing here
puts one down, so they are left out.
-/

namespace RequestLog.Relational

inductive Value where
  | null
  | int (i : Int)
  | real (x : Float)
  | text (s : String)
  deriving BEq, Inhabited

namespace Value

def isNull : Value → Bool
  | .null => true
  | _ => false

def typeName : Value → String
  | .null => "NULL"
  | .int _ => "INTEGER"
  | .real _ => "REAL"
  | .text _ => "TEXT"

/-- A double as a value; what is not a number is absent. -/
def ofFloat (x : Float) : Value := if x.isNaN then .null else .real x

/-- The truth values are numbers. -/
def ofBool (b : Bool) : Value := .int (if b then 1 else 0)

def ofTruth : Option Bool → Value
  | some b => ofBool b
  | none => .null

/-! ## Numbers out of values -/

def isSpace (c : Char) : Bool :=
  c = ' ' || c = '\t' || c = '\n' || c = '\r' || c = '\x0b' || c = '\x0c'

/-- The exponent at the front of a text, if a whole one is there. -/
def exponentPrefix (cs : List Char) : List Char :=
  match cs with
  | [] => []
  | e :: rest =>
      if e = 'e' || e = 'E' then
        let (sign, rest) := match rest with
          | '+' :: more => (['+'], more)
          | '-' :: more => (['-'], more)
          | _ => ([], rest)
        let digits := rest.takeWhile Char.isDigit
        if digits.isEmpty then [] else e :: sign ++ digits
      else []

/-- As much of the front of a text as spells an unsigned number. -/
def numberPrefix (cs : List Char) : List Char :=
  let whole := cs.takeWhile Char.isDigit
  let rest := cs.dropWhile Char.isDigit
  let fraction := match rest with
    | '.' :: more => '.' :: more.takeWhile Char.isDigit
    | _ => []
  let digits := whole ++ fraction
  if digits.any Char.isDigit then
    digits ++ exponentPrefix (cs.drop digits.length)
  else []

/-- The number at the front of a text, zero if there is none, and what is behind it. -/
def leadingNumber (s : String) : Float × List Char :=
  let (negative, cs) := Decimal.splitSign (s.toList.dropWhile isSpace)
  let digits := numberPrefix cs
  match Decimal.readScientific negative digits with
  | some x => (x.toFloat, cs.drop digits.length)
  | none => (0, cs)

/-- A value as a double; an absent one is none. -/
def toFloat : Value → Float
  | .null => 0
  | .int i => Decimal.ofInt i
  | .real x => x
  | .text s => (leadingNumber s).1

/-- Whether a value counts as true, if that is known. -/
def truth : Value → Option Bool
  | .null => none
  | .int i => some (i ≠ 0)
  | v => some (v.toFloat != 0)

/-! ## Order -/

/-- How an integer compares with a double, without rounding the integer. -/
def compareWhole (i : Int) (x : Float) : Ordering :=
  if x.isInf then (if x < 0 then .gt else .lt)
  else
    let t := Decimal.truncate x
    if i < t then .lt
    else if t < i then .gt
    else
      let back := Decimal.ofInt t
      if back < x then .lt else if x < back then .gt else .eq

def compareReals (x y : Float) : Ordering :=
  if x < y then .lt else if y < x then .gt else .eq

def compareTexts (s t : String) : Ordering :=
  if s < t then .lt else if t < s then .gt else .eq

def compare : Value → Value → Ordering
  | .null, .null => .eq
  | .null, _ => .lt
  | _, .null => .gt
  | .int i, .int j => Ord.compare i j
  | .int i, .real y => compareWhole i y
  | .real x, .int j => (compareWhole j x).swap
  | .real x, .real y => compareReals x y
  | .text s, .text t => compareTexts s t
  | .text _, _ => .gt
  | _, .text _ => .lt

def agrees (a b : Value) : Bool := !a.isNull && a.compare b == .eq

/-! ## Columns -/

inductive Affinity where
  | integer
  | text
  deriving DecidableEq, BEq

/-- An integral double as an integer, where it fits. -/
def wholeIfIntegral (x : Float) : Value :=
  match Decimal.integral? x with
  | some i => if Decimal.fitsSigned 64 i then .int i else .real x
  | none => .real x

/-- The number that a whole text spells, but for blanks around it. -/
def ofNumeral? (s : String) : Option Value :=
  let body := ((s.toList.dropWhile isSpace).reverse.dropWhile isSpace).reverse
  let text := String.ofList body
  match Decimal.readInt64 text with
  | some i => some (.int i)
  | none =>
      let (negative, cs) := Decimal.splitSign body
      if (numberPrefix cs).length = cs.length then
        (Decimal.readScientific negative cs).map fun x => wholeIfIntegral x.toFloat
      else none

/-- A value in the form that a column prefers, as far as nothing is lost by it. -/
def prefer : Affinity → Value → Value
  | .integer, .real x => wholeIfIntegral x
  | .integer, .text s => (ofNumeral? s).getD (.text s)
  | .text, .int i => .text (Decimal.intText i)
  | .text, .real x => .text (Decimal.jsonText x)
  | _, v => v

end Value

end RequestLog.Relational
