import RequestLog.Decimal.Nearest
import RequestLog.Decimal.Shortest

/-!
# The whole part of a double

A finite double is cut to the integer next to it on the side of zero, exactly and
at any size. What does not fit where it is needed is a question for later.
-/

namespace RequestLog.Decimal

/-- What remains of the magnitude without its fraction. -/
def Parts.whole (p : Parts) : Nat :=
  if p.scale < 0 then p.significand / twos (-p.scale).toNat
  else p.significand * twos p.scale.toNat

def isNegative (x : Float) : Bool := x.toBits.toNat / signBit % 2 = 1

/-- The integer next to a finite double on the side of zero. -/
def truncate (x : Float) : Int :=
  let n : Int := (Parts.ofBits (x.toBits.toNat % signBit)).whole
  if isNegative x then -n else n

def integral? (x : Float) : Option Int :=
  if x.isFinite && ofInt (truncate x) == x then some (truncate x) else none

end RequestLog.Decimal
