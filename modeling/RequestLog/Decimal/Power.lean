/-!
# Powers of two and of ten

Doubles are counted in powers of two and decimals in powers of ten. Both are powers
of a natural number to a natural number, so that nothing is rounded on the way.
-/

namespace RequestLog.Decimal

def twos (n : Nat) : Nat := Nat.pow 2 n

def tens (n : Nat) : Nat := Nat.pow 10 n

def signBit : Nat := twos 63

/-- The bit above the part of a significand that a double stores. -/
def hiddenBit : Nat := twos 52

end RequestLog.Decimal
