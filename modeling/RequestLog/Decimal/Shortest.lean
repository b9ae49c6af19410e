import RequestLog.Decimal.Power

/-!
# The fewest digits that read back

A double stands for every real that rounds to it, an interval around its value.
Of the decimals in that interval the shortest is written, and of two equally
short ones the nearer. The search tries one digit, then two, and so on: if a
decimal grid has any point in the interval, then one of the two grid points next
to the value lies there, so two candidates decide each grid. Seventeen digits
always suffice.

All of it is integer arithmetic on the significand and the binary exponent.
-/

namespace RequestLog.Decimal

/--
A finite double apart from its sign, as `significand · 2 ^ scale`. `edge` marks a
power of two, whose lower neighbour is only half as far away as its upper one.
-/
structure Parts where
  significand : Nat
  scale : Int
  edge : Bool

def Parts.ofBits (bits : Nat) : Parts :=
  let field : Nat := bits / hiddenBit % 2048
  let low : Nat := bits % hiddenBit
  if field = 0 then ⟨low, -1074, false⟩
  else ⟨low + hiddenBit, (field : Int) - 1075, low = 0 && 1 < field⟩

/-- `x · 10 ^ e` as a fraction of naturals. -/
def scaleTen (num den : Nat) (e : Int) : Nat × Nat :=
  if e < 0 then (num, den * tens (-e).toNat) else (num * tens e.toNat, den)

/-- The `e` with `10 ^ e ≤ num / den < 10 ^ (e + 1)`, for positive arguments. -/
def decimalScale (num den : Nat) : Int :=
  let guess : Int := ((num.log2 : Int) - den.log2) * 1233 / 4096
  let reached (e : Int) : Bool :=
    let (n, d) := scaleTen num den (-e)
    d ≤ n
  ((([2, 1, 0].map (guess + ·)).find? reached).getD (guess - 1))

/-- Digits of a positive decimal: `0.d₁d₂… · 10 ^ point`. -/
structure Digits where
  digits : List Char
  point : Int

namespace Parts

/-- The value and its two ends, over one denominator. -/
structure Interval where
  low : Nat
  value : Nat
  high : Nat
  den : Nat
  closed : Bool

def interval (p : Parts) : Interval :=
  let value := 4 * p.significand
  let low := value - (if p.edge then 1 else 2)
  let high := value + 2
  let closed := p.significand % 2 = 0
  if p.scale < 2 then ⟨low, value, high, twos (2 - p.scale).toNat, closed⟩
  else
    let unit := twos (p.scale - 2).toNat
    ⟨low * unit, value * unit, high * unit, 1, closed⟩

def Interval.contains (i : Interval) (num den : Nat) : Bool :=
  let here := num * i.den
  if i.closed then i.low * den ≤ here && here ≤ i.high * den
  else i.low * den < here && here < i.high * den

/-- The grid point with spacing `10 ^ e` that is chosen for the interval, if any. -/
def Interval.gridPoint? (i : Interval) (e : Int) : Option Nat :=
  let (num, den) := scaleTen i.value i.den (-e)
  let below := num / den
  let inside (k : Nat) : Bool :=
    let (n, d) := scaleTen k 1 e
    i.contains n d
  match inside below, inside (below + 1) with
  | true, true => some (roundNearer num den below)
  | true, false => some below
  | false, true => some (below + 1)
  | false, false => none
where
  roundNearer (num den below : Nat) : Nat :=
    let r := 2 * (num % den)
    if r < den then below
    else if den < r then below + 1
    else if below % 2 = 0 then below else below + 1

def shortest (p : Parts) : Digits :=
  let i := p.interval
  let top := decimalScale i.value i.den
  let grids := (List.range 17).map fun (n : Nat) => top - (n : Int)
  match grids.findSome? fun e => (i.gridPoint? e).map fun k => (k, e) with
  | some (k, e) =>
      let text := Nat.toDigits 10 k
      let digits := (text.reverse.dropWhile (· = '0')).reverse
      ⟨digits, e + text.length⟩
  | none => ⟨['0'], 1⟩

end Parts

end RequestLog.Decimal
