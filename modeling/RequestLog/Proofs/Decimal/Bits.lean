import Mathlib.Algebra.Group.Nat.Defs
import RequestLog.Decimal.Layout

/-!
# Doubles and their bits

The bits of a double are a sign, an exponent field and the part of the significand that is
stored. It is finite exactly when its bits, the sign apart, are below those of infinity.

What the fields stand for is `Parts.ofBits`, and the language's own model of a double
reads them no differently (`unpack_eq_finite`).
-/

namespace RequestLog.Decimal

open Float.Model Float.Model.UnpackedFloat

theorem signBit_eq : signBit = 2 ^ 63 := rfl

theorem hiddenBit_eq : hiddenBit = 2 ^ 52 := rfl

theorem infinityBits_eq : infinityBits = 2047 * 2 ^ 52 := rfl

/-! ## The fields -/

section

variable (b : BitVec Format.binary64.numBits)

theorem toNat_exponent : (unpackExponent b).toNat = b.toNat / 2 ^ 52 % 2 ^ 11 := by
  unfold unpackExponent
  rw [BitVec.toNat_cast, BitVec.extractLsb_toNat, Nat.shiftRight_eq_div_pow]
  rfl

theorem toNat_mantissa : (unpackMantissa b).toNat = b.toNat % 2 ^ 52 := by
  unfold unpackMantissa
  rw [BitVec.toNat_cast, BitVec.extractLsb_toNat, Nat.shiftRight_eq_div_pow, Nat.pow_zero,
    Nat.div_one]
  rfl

theorem exponent_eq_ones_iff :
    unpackExponent b = -1#11 ↔ infinityBits ≤ b.toNat % signBit := by
  rw [← BitVec.toNat_inj, toNat_exponent, infinityBits_eq, signBit_eq]
  change b.toNat / 2 ^ 52 % 2 ^ 11 = 2047 ↔ _
  omega

/-- The significand of a normal double has the hidden bit in front of the stored ones. -/
theorem toNat_hidden_append (m : BitVec 52) : (1#1 ++ m).toNat = m.toNat + 2 ^ 52 := by
  rw [BitVec.toNat_append, ← Nat.shiftLeft_add_eq_or_of_lt m.isLt, Nat.add_comm]
  rfl

end

/-! ## What the bits stand for -/

section

variable {b : BitVec Format.binary64.numBits}

theorem unpack_ones (h : unpackExponent b = -1#11) :
    UnpackedFloat.unpack .binary64 b =
      if unpackMantissa b = 0#52 then .infinity (.ofBitVec (unpackSign b)) else .notANumber :=
  if_pos h

theorem not_ones_of_zero (h : unpackExponent b = 0#11) : ¬unpackExponent b = -1#11 := by
  rw [h]
  decide

theorem unpack_zero (he : unpackExponent b = 0#11) (hm : unpackMantissa b = 0#52) :
    UnpackedFloat.unpack .binary64 b = .zero (.ofBitVec (unpackSign b)) :=
  (if_neg (not_ones_of_zero he)).trans ((if_pos he).trans (dif_pos hm))

theorem unpack_subnormal (he : unpackExponent b = 0#11) (hm : ¬unpackMantissa b = 0#52) :
    ∃ hpos, UnpackedFloat.unpack .binary64 b =
      .finite (.ofBitVec (unpackSign b)) (unpackMantissa b).toNat (-1074) hpos := by
  have hscale : (-1074 : Int) = (unpackExponent b).toNat - (1023 + 52 : Nat) + 1 := by
    rw [he]
    rfl
  rw [hscale]
  exact ⟨_, (if_neg (not_ones_of_zero he)).trans ((if_pos he).trans (dif_neg hm))⟩

theorem unpack_normal (hones : ¬unpackExponent b = -1#11) (hzero : ¬unpackExponent b = 0#11) :
    ∃ hpos, UnpackedFloat.unpack .binary64 b =
      .finite (.ofBitVec (unpackSign b)) ((unpackMantissa b).toNat + 2 ^ 52)
        ((unpackExponent b).toNat - 1075) hpos := by
  rw [← toNat_hidden_append]
  exact ⟨_, (if_neg hones).trans (if_neg hzero)⟩

theorem isFinite_unpack :
    (UnpackedFloat.unpack .binary64 b).isFinite = true ↔ ¬unpackExponent b = -1#11 := by
  by_cases hones : unpackExponent b = -1#11
  · rw [unpack_ones hones]
    split <;> exact iff_of_false Bool.false_ne_true (not_not_intro hones)
  · refine iff_of_true ?_ hones
    by_cases hzero : unpackExponent b = 0#11
    · by_cases hnone : unpackMantissa b = 0#52
      · rw [unpack_zero hzero hnone]
        rfl
      · obtain ⟨hpos, hb⟩ := unpack_subnormal hzero hnone
        rw [hb]
        rfl
    · obtain ⟨hpos, hb⟩ := unpack_normal hones hzero
      rw [hb]
      rfl

end

theorem isFinite_iff {x : Float} :
    x.isFinite = true ↔ x.toBits.toNat % signBit < infinityBits := by
  rw [← Nat.not_le]
  exact isFinite_unpack.trans (not_congr (exponent_eq_ones_iff x.toBits.toBitVec))

/-- A number that is not zero has the significand and the scale of its bits. -/
theorem unpack_eq_finite {b : BitVec Format.binary64.numBits} {s : Sign} {m : Nat} {e : Int}
    {hm : 0 < m} (h : UnpackedFloat.unpack .binary64 b = .finite s m e hm) :
    (Parts.ofBits (b.toNat % signBit)).significand = m ∧
      (Parts.ofBits (b.toNat % signBit)).scale = e := by
  have hfield : b.toNat % 2 ^ 63 / 2 ^ 52 % 2048 = (unpackExponent b).toNat := by
    rw [toNat_exponent]
    omega
  have hlow : b.toNat % 2 ^ 63 % 2 ^ 52 = (unpackMantissa b).toNat := by
    rw [toNat_mantissa]
    omega
  rw [Parts.ofBits, signBit_eq, hiddenBit_eq, hfield, hlow]
  have hones : ¬unpackExponent b = -1#11 := isFinite_unpack.1 (by rw [h]; rfl)
  by_cases hzero : unpackExponent b = 0#11
  · by_cases hnone : unpackMantissa b = 0#52
    · rw [unpack_zero hzero hnone] at h
      cases h
    · obtain ⟨hpos, hb⟩ := unpack_subnormal hzero hnone
      obtain ⟨-, rfl, rfl⟩ := UnpackedFloat.finite.inj (hb.symm.trans h)
      rw [hzero]
      exact ⟨rfl, rfl⟩
  · obtain ⟨hpos, hb⟩ := unpack_normal hones hzero
    obtain ⟨-, rfl, rfl⟩ := UnpackedFloat.finite.inj (hb.symm.trans h)
    have hnonzero : (unpackExponent b).toNat ≠ 0 := fun h => hzero (BitVec.eq_of_toNat_eq h)
    rw [if_neg hnonzero]
    exact ⟨rfl, rfl⟩

end RequestLog.Decimal
