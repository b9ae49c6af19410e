import RequestLog.Proofs.Decimal.Nearest

/-!
# The sign of a double

A finite double is a rational (`Worth`), and there are two doubles for zero. A double is below
zero exactly when it is finite and its rational is negative, or when it is the negative
infinity; the zero that has a sign is not below the other.
-/

namespace RequestLog.Decimal

open Float.Model Float.Model.UnpackedFloat

/-- The rational that a finite double is. -/
inductive Worth (x : Float) : ℚ → Prop where
  | positive : x.toBits.toNat < infinityBits → Worth x (magnitude x.toBits.toNat)
  | negative {b : Nat} : b < infinityBits → x.toBits.toNat = b + signBit →
      Worth x (-magnitude b)

theorem magnitude_zero : magnitude 0 = 0 := by
  have hgrid : Grid 0 0 := ⟨by omega, by omega, .inl rfl⟩
  simpa using hgrid.magnitude

theorem magnitude_nonneg {b : Nat} (h : b ≤ infinityBits) : 0 ≤ magnitude b :=
  magnitude_zero ▸ magnitude_le (Nat.zero_le b) h

/-! ## Below zero -/

theorem toNat_sign (b : BitVec Format.binary64.numBits) :
    (unpackSign b).toNat = b.toNat / 2 ^ 63 % 2 := by
  unfold unpackSign
  rw [BitVec.toNat_cast, BitVec.extractLsb_toNat, Nat.shiftRight_eq_div_pow]
  rfl

theorem sign_negative_iff {b : BitVec Format.binary64.numBits} :
    Sign.ofBitVec (unpackSign b) = .negative ↔ signBit ≤ b.toNat := by
  have hsize : b.toNat < 2 ^ 64 := b.isLt
  have hzero : unpackSign b = 0#1 ↔ ¬signBit ≤ b.toNat := by
    rw [← BitVec.toNat_inj, toNat_sign, signBit_eq]
    change _ = 0 ↔ _
    omega
  rw [Sign.ofBitVec]
  split
  · next h => exact iff_of_false nofun (hzero.1 h)
  · next h => exact iff_of_true rfl (not_not.1 (mt hzero.2 h))

/-- A number that is negative, and no zero. -/
def belowZero : UnpackedFloat → Bool
  | .finite .negative .. | .infinity .negative => true
  | _ => false

theorem lt_zero_eq (u : UnpackedFloat) (s : Sign) : u.lt (.zero s) = belowZero u := by
  rcases u with (_ | _) | _ | s | ⟨_ | _, m, e, h⟩ <;> rfl

theorem belowZero_finite {s : Sign} {m : Nat} {e : Int} {hm : 0 < m} :
    belowZero (.finite s m e hm) = true ↔ s = .negative := by
  cases s
  · exact iff_of_true rfl rfl
  · exact iff_of_false Bool.false_ne_true nofun

theorem belowZero_unpack {b : BitVec Format.binary64.numBits}
    (hones : ¬unpackExponent b = -1#11) :
    belowZero (UnpackedFloat.unpack .binary64 b) = true ↔ signBit < b.toNat := by
  have hsize : b.toNat < 2 ^ 64 := b.isLt
  have hfield := toNat_exponent b
  have hlow := toNat_mantissa b
  -- Where a field is not zero, neither are the bits behind the sign.
  have hstrict (h : unpackExponent b ≠ 0#11 ∨ unpackMantissa b ≠ 0#52) :
      signBit ≤ b.toNat ↔ signBit < b.toNat := by
    have hfields : (unpackExponent b).toNat ≠ 0 ∨ (unpackMantissa b).toNat ≠ 0 :=
      h.imp (fun hne h => hne (BitVec.eq_of_toNat_eq h))
        (fun hne h => hne (BitVec.eq_of_toNat_eq (y := 0#52) h))
    rw [hfield, hlow] at hfields
    rw [signBit_eq]
    omega
  by_cases hzero : unpackExponent b = 0#11
  · by_cases hnone : unpackMantissa b = 0#52
    · rw [unpack_zero hzero hnone]
      refine iff_of_false Bool.false_ne_true ?_
      rw [hzero] at hfield
      rw [hnone] at hlow
      change 0 = _ at hfield
      change 0 = _ at hlow
      rw [signBit_eq]
      omega
    · obtain ⟨hpos, hb⟩ := unpack_subnormal hzero hnone
      rw [hb, belowZero_finite, sign_negative_iff, hstrict (.inr hnone)]
  · obtain ⟨hpos, hb⟩ := unpack_normal hones hzero
    rw [hb, belowZero_finite, sign_negative_iff, hstrict (.inl hzero)]

theorem lt_zero_iff {x : Float} (hfinite : x.isFinite = true) :
    x < 0 ↔ signBit < x.toBits.toNat := by
  have hlt : x < 0 ↔ x.toModel.unpack.lt (.zero .positive) = true := decide_eq_true_iff
  rw [hlt, lt_zero_eq]
  exact belowZero_unpack (isFinite_unpack.1 hfinite)

/-- The doubles that are numbers and not negative are those for a rational that is not. -/
theorem worth_nonneg_iff {x : Float} :
    (∃ q, Worth x q ∧ 0 ≤ q) ↔ x.isFinite = true ∧ ¬x < 0 := by
  have hsize : x.toBits.toNat < 2 ^ 64 := x.toBits.toBitVec.isLt
  constructor
  · rintro ⟨q, hworth, hq⟩
    have hfinite : x.isFinite = true := by
      rw [isFinite_iff]
      cases hworth with
      | positive h => rw [infinityBits_eq, signBit_eq] at *; omega
      | negative h hbits => rw [infinityBits_eq, signBit_eq] at *; omega
    refine ⟨hfinite, ?_⟩
    rw [lt_zero_iff hfinite]
    cases hworth with
    | positive h => rw [infinityBits_eq, signBit_eq] at *; omega
    | @negative b h hbits =>
        have hb : ¬0 < b := by
          intro hb
          have hlt := magnitude_lt hb h.le
          rw [magnitude_zero] at hlt
          linarith
        omega
  · rintro ⟨hfinite, hlt⟩
    rw [lt_zero_iff hfinite] at hlt
    rw [isFinite_iff] at hfinite
    obtain hpositive | hzero := Nat.lt_or_eq_of_le (Nat.not_lt.1 hlt)
    · rw [Nat.mod_eq_of_lt hpositive] at hfinite
      exact ⟨_, .positive hfinite, magnitude_nonneg hfinite.le⟩
    · refine ⟨_, .negative (b := 0) (by decide) (by rw [hzero, Nat.zero_add]), ?_⟩
      rw [magnitude_zero, neg_zero]

end RequestLog.Decimal
