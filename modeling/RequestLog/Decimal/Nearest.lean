import RequestLog.Decimal.Power

/-!
# The double nearest to a rational

A decimal text names a rational, and the double it stands for is the nearest
one, a tie going to the even significand. Everything here is exact arithmetic
on `Nat`, down to the bits of the result: rounding through a machine product
would round twice.

`nearestBits` covers subnormal results and overflow with one formula. A
significand that rounds up to `2 ^ 53` carries into the exponent field by
itself, which is why the fields are added and not joined.
-/

namespace RequestLog.Decimal

/-- `num / den` to the nearest integer, a half going to the even neighbour. -/
def roundHalfEven (num den : Nat) : Nat :=
  let q := num / den
  let r := num % den
  if 2 * r < den then q
  else if den < 2 * r then q + 1
  else if q % 2 = 0 then q else q + 1

def infinityBits : Nat := 2047 * hiddenBit

/-- The `e` with `2 ^ e ≤ num / den < 2 ^ (e + 1)`, for positive arguments. -/
def binaryScale (num den : Nat) : Int :=
  let guess : Int := (num.log2 : Int) - den.log2
  let below :=
    if guess < 0 then num * twos (-guess).toNat < den
    else num < den * twos guess.toNat
  if below then guess - 1 else guess

/-- Bits of the double nearest to `num / den`, for a positive `den`. -/
def nearestBits (num den : Nat) : Nat :=
  if num = 0 then 0
  else
    let ulp : Int := max (binaryScale num den - 52) (-1074)
    let m :=
      if ulp < 0 then roundHalfEven (num * twos (-ulp).toNat) den
      else roundHalfEven num (den * twos ulp.toNat)
    let bits :=
      if m < hiddenBit then m
      else (ulp + 1075).toNat * hiddenBit + (m - hiddenBit)
    min bits infinityBits

/-- A decimal in scientific form: `± digits · 10 ^ exponent`. -/
structure Scientific where
  negative : Bool
  digits : Nat
  exponent : Int

/--
The nearest double. An exponent so large or so small that the answer is
infinity or zero is recognised first, so that no power is computed for it.
-/
def Scientific.toFloat (x : Scientific) : Float :=
  let size : Int := (Nat.toDigits 10 x.digits).length
  let bits :=
    if x.digits = 0 then 0
    else if 310 < size + x.exponent then infinityBits
    else if size + x.exponent < -330 then 0
    else if x.exponent < 0 then nearestBits x.digits (tens (-x.exponent).toNat)
    else nearestBits (x.digits * tens x.exponent.toNat) 1
  Float.ofBits (UInt64.ofNat (if x.negative then bits + signBit else bits))

def ofInt (i : Int) : Float :=
  Scientific.toFloat ⟨decide (i < 0), i.natAbs, 0⟩

end RequestLog.Decimal
