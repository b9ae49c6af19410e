import Mathlib
import RequestLog.Proofs.Decimal.Bits

/-!
# The nearest double is the nearest one

Bits without a sign stand for a rational (`magnitude`), and more bits for a larger one.
A rational is rounded to the bits whose value is nearest to it, and of two that are as
near to the even ones (`Rounds`); infinity takes part in this with the value that the
next power of two has, which is how overflow is defined. So at most one double is right
for a rational, and `nearestBits` finds it.

Between two powers of two the values lie on a grid of constant spacing: number `n` of
the grids has the multiples of `2 ^ (n - 1074)` up to `2 ^ 53` of them, the first grid
from zero on and every other from `2 ^ 52` of them on. The end of each grid is the
beginning of the next, so that a significand rounded up to `2 ^ 53` is no special case.
-/

namespace RequestLog.Decimal

/-! ## What bits are worth -/

/-- The rational that a finite double is, its sign apart. -/
def Parts.value (p : Parts) : ℚ := p.significand * 2 ^ p.scale

def magnitude (bits : Nat) : ℚ := (Parts.ofBits bits).value

/-- The spacing of grid number `n`. -/
def spacing (n : Nat) : ℚ := 2 ^ ((n : ℤ) - 1074)

theorem spacing_pos (n : Nat) : 0 < spacing n := zpow_pos two_pos _

theorem spacing_succ (n : Nat) : spacing (n + 1) = 2 * spacing n := by
  rw [spacing, spacing, ← zpow_one_add₀ two_ne_zero]
  congr 1
  push_cast
  ring

/-- The multiples that a grid has. -/
structure Grid (n m : Nat) : Prop where
  number : n ≤ 2045
  size : m ≤ 2 ^ 53
  least : n = 0 ∨ 2 ^ 52 ≤ m

theorem Grid.magnitude {n m : Nat} (h : Grid n m) :
    magnitude (n * hiddenBit + m) = m * spacing n := by
  obtain ⟨hn, hm, hleast⟩ := h
  have hparts {field low : Nat} (hlow : low < 2 ^ 52) (hfield : field < 2048) :
      Parts.ofBits (field * hiddenBit + low) =
        if field = 0 then ⟨low, -1074, false⟩
        else ⟨low + hiddenBit, (field : ℤ) - 1075, low = 0 && 1 < field⟩ := by
    have hdiv : (field * hiddenBit + low) / hiddenBit % 2048 = field := by
      rw [hiddenBit_eq]
      omega
    have hmod : (field * hiddenBit + low) % hiddenBit = low := by
      rw [hiddenBit_eq]
      omega
    rw [Parts.ofBits, hdiv, hmod]
  rw [RequestLog.Decimal.magnitude, Parts.value, spacing]
  by_cases hsmall : m < 2 ^ 52
  · have hzero : n = 0 := by omega
    rw [hparts hsmall (by omega), if_pos hzero, hzero]
    norm_num
  · by_cases hcarry : m < 2 ^ 53
    · have hsplit : n * hiddenBit + m = (n + 1) * hiddenBit + (m - 2 ^ 52) := by
        rw [hiddenBit_eq]
        omega
      rw [hsplit, hparts (by omega) (by omega), if_neg n.succ_ne_zero, hiddenBit_eq]
      rw [Nat.sub_add_cancel (Nat.not_lt.1 hsmall)]
      congr 2
      push_cast
      ring
    · have hall : m = 2 ^ 53 := by omega
      have hsplit : n * hiddenBit + m = (n + 2) * hiddenBit + 0 := by
        rw [hiddenBit_eq]
        omega
      rw [hsplit, hparts (by omega) (by omega), if_neg (n + 1).succ_ne_zero, hiddenBit_eq, hall]
      push_cast
      rw [show (n : ℤ) + 2 - 1075 = (n - 1074) + 1 by ring, zpow_add_one₀ two_ne_zero]
      ring

theorem exists_grid {b : Nat} (h : b < infinityBits) :
    ∃ n m, Grid n m ∧ m < 2 ^ 53 ∧ b = n * hiddenBit + m := by
  rw [infinityBits_eq] at h
  by_cases hsmall : b < 2 ^ 52
  · exact ⟨0, b, ⟨by omega, by omega, .inl rfl⟩, by omega, by omega⟩
  · refine ⟨b / 2 ^ 52 - 1, b % 2 ^ 52 + 2 ^ 52, ⟨by omega, by omega, .inr (by omega)⟩,
      by omega, ?_⟩
    rw [hiddenBit_eq]
    omega

theorem Grid.succ {n m : Nat} (h : Grid n m) (hm : m < 2 ^ 53) : Grid n (m + 1) :=
  ⟨h.number, hm, h.least.imp_right Nat.le_succ_of_le⟩

theorem Grid.magnitude_succ {n m : Nat} (h : Grid n m) (hm : m < 2 ^ 53) :
    RequestLog.Decimal.magnitude (n * hiddenBit + m + 1) =
      RequestLog.Decimal.magnitude (n * hiddenBit + m) + spacing n := by
  rw [Nat.add_assoc, h.magnitude, (h.succ hm).magnitude]
  push_cast
  ring

theorem magnitude_lt_succ {b : Nat} (h : b < infinityBits) :
    magnitude b < magnitude (b + 1) := by
  obtain ⟨n, m, hgrid, hm, rfl⟩ := exists_grid h
  rw [hgrid.magnitude_succ hm]
  exact lt_add_of_pos_right _ (spacing_pos n)

/-- More bits are worth more. -/
theorem magnitude_lt {b b' : Nat} (hlt : b < b') (h : b' ≤ infinityBits) :
    magnitude b < magnitude b' := by
  induction b', hlt using Nat.le_induction with
  | base => exact magnitude_lt_succ h
  | succ c hc ih => exact (ih (by omega)).trans (magnitude_lt_succ h)

theorem magnitude_le {b b' : Nat} (hle : b ≤ b') (h : b' ≤ infinityBits) :
    magnitude b ≤ magnitude b' := by
  obtain rfl | hlt := Nat.eq_or_lt_of_le hle
  · exact le_rfl
  · exact (magnitude_lt hlt h).le

theorem magnitude_infinity : magnitude infinityBits = 2 ^ (1024 : ℤ) := by
  have hgrid : Grid 2045 (2 ^ 53) := ⟨le_rfl, le_rfl, .inr (by omega)⟩
  have hbits : infinityBits = 2045 * hiddenBit + 2 ^ 53 := by decide
  rw [hbits, hgrid.magnitude, spacing, Nat.cast_pow, Nat.cast_ofNat, ← zpow_natCast,
    ← zpow_add₀ two_ne_zero]
  rfl

/-! ## Being the nearest -/

/-- The bits, without a sign, of the double nearest to a rational that is not negative. -/
def Rounds (q : ℚ) (b : Nat) : Prop :=
  b ≤ infinityBits ∧ ∀ b' ≤ infinityBits, b' ≠ b →
    |q - magnitude b| < |q - magnitude b'| ∨
      |q - magnitude b| = |q - magnitude b'| ∧ b % 2 = 0

/-- Of three values in order the middle one is nearer than one of the others. -/
theorem abs_sub_lt_of_between {q x y z : ℚ} (hxy : x < y) (hyz : y < z) :
    |q - y| < |q - x| ∨ |q - y| < |q - z| := by
  obtain hle | hlt := le_total q y
  · refine .inr ?_
    rw [abs_of_nonpos (by linarith), abs_of_nonpos (by linarith)]
    linarith
  · refine .inl ?_
    rw [abs_of_nonneg (by linarith), abs_of_nonneg (by linarith)]
    linarith

theorem Rounds.unique {q : ℚ} {b b' : Nat} (h : Rounds q b) (h' : Rounds q b') : b = b' := by
  wlog hle : b ≤ b' generalizing b b'
  · exact (this h' h (by omega)).symm
  by_contra hne
  obtain hlt | ⟨heq, heven⟩ := h.2 b' h'.1 (Ne.symm hne)
  · obtain hlt' | ⟨heq', -⟩ := h'.2 b h.1 hne
    · exact lt_asymm hlt hlt'
    · exact hlt.ne heq'.symm
  obtain hlt' | ⟨-, heven'⟩ := h'.2 b h.1 hne
  · exact hlt'.ne heq.symm
  -- Two even ones have an odd one between them, which is nearer.
  have hbetween : b < b + 1 ∧ b + 1 < b' := by omega
  have hnearer := abs_sub_lt_of_between (q := q)
    (magnitude_lt hbetween.1 (by have := h'.1; omega)) (magnitude_lt hbetween.2 h'.1)
  rw [← heq, or_self] at hnearer
  obtain hlt | ⟨heq, -⟩ := h.2 (b + 1) (by have := h'.1; omega) (by omega)
  · exact lt_asymm hnearer hlt
  · exact hnearer.ne heq.symm

theorem Grid.le_infinityBits {n m : Nat} (h : Grid n m) :
    n * hiddenBit + m ≤ infinityBits := by
  obtain ⟨hn, hm, -⟩ := h
  rw [hiddenBit_eq, infinityBits_eq]
  omega

/-- Above a value of a grid, the next one is at least one spacing away. -/
theorem Grid.add_spacing_le {n m b : Nat} (h : Grid n m) (hlt : n * hiddenBit + m < b)
    (hb : b ≤ infinityBits) :
    RequestLog.Decimal.magnitude (n * hiddenBit + m) + spacing n ≤
      RequestLog.Decimal.magnitude b := by
  refine le_trans ?_ (magnitude_le hlt hb)
  by_cases hm : m < 2 ^ 53
  · exact (h.magnitude_succ hm).ge
  · -- The end of the grid is the beginning of one that is twice as wide.
    have hn : n + 1 ≤ 2045 := by
      rw [hiddenBit_eq] at hlt
      rw [infinityBits_eq] at hb
      omega
    have hgrid : Grid (n + 1) (2 ^ 52) := ⟨hn, by omega, .inr le_rfl⟩
    have hsize := h.size
    have hsame : n * hiddenBit + m = (n + 1) * hiddenBit + 2 ^ 52 := by
      rw [hiddenBit_eq]
      omega
    rw [hsame, hgrid.magnitude_succ (by omega), spacing_succ]
    have hpos := spacing_pos n
    linarith

/-- So is the one below, unless the grid begins there. -/
theorem Grid.le_sub_spacing {n m b : Nat} (h : Grid n m) (hleast : n = 0 ∨ 2 ^ 52 < m)
    (hlt : b < n * hiddenBit + m) :
    RequestLog.Decimal.magnitude b ≤
      RequestLog.Decimal.magnitude (n * hiddenBit + m) - spacing n := by
  have hm : m ≠ 0 := by
    obtain rfl | hlarge := hleast <;> omega
  obtain ⟨k, rfl⟩ := Nat.exists_eq_add_one_of_ne_zero hm
  have hsize := h.size
  have hgrid : Grid n k := ⟨h.number, by omega, by omega⟩
  rw [← Nat.add_assoc, hgrid.magnitude_succ (by omega), add_sub_cancel_right]
  exact magnitude_le (by omega) hgrid.le_infinityBits

/-- An integer nearest to a rational, of two such the even one. -/
def RoundsToInt (x : ℚ) (m : Nat) : Prop :=
  |x - m| ≤ 1 / 2 ∧ (|x - m| = 1 / 2 → m % 2 = 0)

/-- A value that is a spacing away is as near only if both are half of it away. -/
theorem RoundsToInt.nearer {x : ℚ} {m : Nat} (hx : RoundsToInt x m) {n : Nat} {y : ℚ}
    (hgap : spacing n ≤ |m * spacing n - y|) :
    |x - m| * spacing n < |x * spacing n - y| ∨
      |x - m| * spacing n = |x * spacing n - y| ∧ m % 2 = 0 := by
  have hpos := spacing_pos n
  have hdist : |m * spacing n - x * spacing n| = |x - m| * spacing n := by
    rw [← sub_mul, abs_mul, abs_of_pos hpos, abs_sub_comm]
  have hhalf : |x - m| * spacing n ≤ spacing n / 2 := by
    have := mul_le_mul_of_nonneg_right hx.1 hpos.le
    linarith
  have htriangle := abs_sub_le (m * spacing n) (x * spacing n) y
  rw [hdist] at htriangle
  obtain hlt | heq := (show |x - m| * spacing n ≤ |x * spacing n - y| by
    linarith).lt_or_eq
  · exact .inl hlt
  · have htie : |x - m| = 1 / 2 := by
      have : |x - m| * spacing n = 1 / 2 * spacing n := by linarith
      exact mul_right_cancel₀ hpos.ne' this
    exact .inr ⟨heq, hx.2 htie⟩

/-- What is nearest on its own grid is nearest of all. -/
theorem Rounds.of_grid {x : ℚ} {n m : Nat} (h : Grid n m) (hx : RoundsToInt x m)
    (hleast : n = 0 ∨ 2 ^ 52 ≤ x) : Rounds (x * spacing n) (n * hiddenBit + m) := by
  have hpos := spacing_pos n
  have hdist : |x * spacing n - magnitude (n * hiddenBit + m)| = |x - m| * spacing n := by
    rw [h.magnitude, ← sub_mul, abs_mul, abs_of_pos hpos]
  have hparity : (n * hiddenBit + m) % 2 = m % 2 := by
    rw [hiddenBit_eq]
    omega
  refine ⟨h.le_infinityBits, fun b' hb' hne => ?_⟩
  rw [hdist, hparity]
  have hfar := @RoundsToInt.nearer x m hx n (magnitude b')
  rw [← h.magnitude] at hfar
  obtain hlt | hgt := Nat.lt_or_gt_of_ne hne
  · by_cases hinner : n = 0 ∨ 2 ^ 52 < m
    · have hle := h.le_sub_spacing hinner hlt
      refine hfar (le_trans ?_ (le_abs_self _))
      linarith
    · -- At the beginning of the grid there is nothing to round up from.
      have hm : (m : ℚ) = 2 ^ 52 := by
        have := h.least
        have hm : m = 2 ^ 52 := by omega
        rw [hm]
        norm_num
      have hle : (m : ℚ) ≤ x := by
        rw [hm]
        exact hleast.resolve_left (by omega)
      have hmag := magnitude_lt hlt h.le_infinityBits
      rw [h.magnitude] at hmag
      have hvalue : m * spacing n ≤ x * spacing n := mul_le_mul_of_nonneg_right hle hpos.le
      rw [abs_of_nonneg (sub_nonneg.2 hle), abs_of_nonneg (by linarith)]
      refine .inl ?_
      linarith
  · have hle := h.add_spacing_le hgt hb'
    refine hfar (le_trans ?_ (neg_le_abs _))
    linarith

theorem Rounds.of_large {q : ℚ} (h : 2 ^ (1024 : ℤ) ≤ q) : Rounds q infinityBits := by
  refine ⟨le_rfl, fun b' hb' hne => .inl ?_⟩
  have hlt := magnitude_lt (Nat.lt_of_le_of_ne hb' hne) le_rfl
  rw [← magnitude_infinity] at h
  rw [abs_of_nonneg (by linarith), abs_of_nonneg (by linarith)]
  linarith

/-- Half of what infinity stands for is not rounded to it. -/
theorem Rounds.lt_infinityBits {q : ℚ} {b : Nat} (h : Rounds q b)
    (hle : q ≤ 2 ^ (1023 : ℤ)) : b < infinityBits := by
  refine Nat.lt_of_le_of_ne h.1 ?_
  rintro rfl
  have hgrid : Grid 2045 (2 ^ 52) := ⟨le_rfl, by omega, .inr le_rfl⟩
  have hhalf : magnitude (2045 * hiddenBit + 2 ^ 52) = 2 ^ (1023 : ℤ) := by
    rw [hgrid.magnitude, spacing, Nat.cast_pow, Nat.cast_ofNat, ← zpow_natCast,
      ← zpow_add₀ two_ne_zero]
    rfl
  have hpower : (2 : ℚ) ^ (1023 : ℤ) < 2 ^ (1024 : ℤ) :=
    zpow_lt_zpow_right₀ one_lt_two (by omega)
  have hnearer := h.2 (2045 * hiddenBit + 2 ^ 52) (by decide) (by decide)
  rw [hhalf, magnitude_infinity] at hnearer
  generalize (2 : ℚ) ^ (1023 : ℤ) = half at *
  generalize (2 : ℚ) ^ (1024 : ℤ) = whole at *
  rw [abs_of_nonpos (by linarith), abs_of_nonpos (by linarith)] at hnearer
  obtain hlt | ⟨heq, -⟩ := hnearer <;> linarith

/-- Less than half of the first grid's spacing is nearest to zero. -/
theorem Rounds.of_small {q : ℚ} (hq : 0 ≤ q) (h : q < 2 ^ (-1075 : ℤ)) : Rounds q 0 := by
  have hgrid : Grid 0 0 := ⟨by omega, by omega, .inl rfl⟩
  have hspacing : (2 : ℚ) ^ (-1075 : ℤ) = 1 / 2 * spacing 0 := by
    rw [spacing, one_div, ← zpow_neg_one, ← zpow_add₀ two_ne_zero]
    rfl
  have hx : q / spacing 0 < 1 / 2 := by
    rw [div_lt_iff₀ (spacing_pos 0), ← hspacing]
    exact h
  have hnear : RoundsToInt (q / spacing 0) 0 := by
    have hnonneg : 0 ≤ q / spacing 0 := div_nonneg hq (spacing_pos 0).le
    rw [RoundsToInt, Nat.cast_zero, sub_zero, abs_of_nonneg hnonneg]
    exact ⟨hx.le, fun _ => rfl⟩
  have := Rounds.of_grid hgrid hnear (.inl rfl)
  rwa [div_mul_cancel₀ _ (spacing_pos 0).ne', Nat.zero_mul] at this

/-! ## Rounding to an integer -/

theorem RoundsToInt.down {x f : ℚ} {k : Nat} (hx : x = k + f) (hnonneg : 0 ≤ f)
    (hhalf : f ≤ 1 / 2) (heven : f = 1 / 2 → k % 2 = 0) : RoundsToInt x k := by
  rw [RoundsToInt, hx, add_sub_cancel_left, abs_of_nonneg hnonneg]
  exact ⟨hhalf, heven⟩

theorem RoundsToInt.up {x f : ℚ} {k : Nat} (hx : x = k + f) (hhalf : 1 / 2 ≤ f) (hone : f < 1)
    (hodd : f = 1 / 2 → k % 2 ≠ 0) : RoundsToInt x (k + 1) := by
  have hdist : x - (k + 1 : Nat) = -(1 - f) := by
    rw [hx, Nat.cast_succ]
    ring
  rw [RoundsToInt, hdist, abs_neg, abs_of_nonneg (by linarith)]
  refine ⟨by linarith, fun heq => ?_⟩
  have := hodd (by linarith)
  omega

theorem roundsToInt_roundHalfEven (num : Nat) {den : Nat} (hden : 0 < den) :
    RoundsToInt ((num : ℚ) / den) (roundHalfEven num den) := by
  have hpos : (0 : ℚ) < den := Nat.cast_pos.2 hden
  -- The fraction that is left of the quotient, which the cases compare to one half.
  generalize hfrac : ((num % den : Nat) : ℚ) / den = f
  have hsplit : (num : ℚ) / den = (num / den : Nat) + f := by
    have hwhole : (num : ℚ) = (num / den : Nat) * den + (num % den : Nat) := by
      rw [← Nat.cast_mul, ← Nat.cast_add, Nat.div_add_mod']
    rw [← hfrac, div_eq_iff hpos.ne', add_mul, div_mul_cancel₀ _ hpos.ne', ← hwhole]
  have hlt : f < 1 / 2 ↔ 2 * (num % den) < den := by
    rw [← hfrac, div_lt_div_iff₀ hpos two_pos]
    norm_cast
    omega
  have hgt : 1 / 2 < f ↔ den < 2 * (num % den) := by
    rw [← hfrac, div_lt_div_iff₀ two_pos hpos]
    norm_cast
    omega
  have hnonneg : 0 ≤ f := by
    rw [← hfrac]
    positivity
  have hone : f < 1 := by
    rw [← hfrac, div_lt_one hpos]
    exact Nat.cast_lt.2 (Nat.mod_lt _ hden)
  simp only [roundHalfEven]
  split
  · next h =>
      have hf := hlt.2 h
      exact .down hsplit hnonneg hf.le fun heq => absurd heq hf.ne
  next hge =>
  rw [← hlt, not_lt] at hge
  split
  · next h => exact .up hsplit hge hone fun heq => absurd heq (hgt.2 h).ne'
  next hle =>
  rw [← hgt, not_lt] at hle
  split
  · next heven => exact .down hsplit hnonneg hle fun _ => heven
  · next hodd => exact .up hsplit hge hone fun _ => hodd

theorem cast_twos {e : ℤ} (h : 0 ≤ e) : (twos e.toNat : ℚ) = 2 ^ e := by
  have : (e.toNat : ℤ) = e := Int.toNat_of_nonneg h
  rw [twos, Nat.pow_eq, Nat.cast_pow, Nat.cast_ofNat, ← zpow_natCast, this]

theorem twos_pos (n : Nat) : 0 < twos n := Nat.pow_pos Nat.two_pos

theorem log2_bounds {n : Nat} (h : 0 < n) :
    (2 : ℚ) ^ (n.log2 : ℤ) ≤ n ∧ (n : ℚ) < 2 ^ ((n.log2 : ℤ) + 1) := by
  rw [zpow_natCast, ← Nat.cast_succ, zpow_natCast]
  exact ⟨mod_cast Nat.log2_self_le h.ne', mod_cast Nat.lt_log2_self⟩

section

variable {num den : Nat}

theorem below_iff (hden : 0 < den) (e : ℤ) :
    (if e < 0 then num * twos (-e).toNat < den else num < den * twos e.toNat) ↔
      (num : ℚ) / den < 2 ^ e := by
  have hpos : (0 : ℚ) < den := Nat.cast_pos.2 hden
  rw [div_lt_iff₀ hpos]
  split
  · next h =>
      have hscale : (2 : ℚ) ^ e = (twos (-e).toNat : ℚ)⁻¹ := by
        rw [cast_twos (by omega), zpow_neg, inv_inv]
      rw [hscale, inv_mul_eq_div, lt_div_iff₀ (Nat.cast_pos.2 (twos_pos _)), ← Nat.cast_mul,
        Nat.cast_lt]
  · next h =>
      rw [← cast_twos (by omega), ← Nat.cast_mul, Nat.cast_lt, Nat.mul_comm]

/-- The power of two below a positive fraction. -/
theorem binaryScale_bounds (hnum : 0 < num) (hden : 0 < den) :
    (2 : ℚ) ^ binaryScale num den ≤ (num : ℚ) / den ∧
      (num : ℚ) / den < 2 ^ (binaryScale num den + 1) := by
  obtain ⟨hnumle, hnumlt⟩ := log2_bounds hnum
  obtain ⟨hdenle, hdenlt⟩ := log2_bounds hden
  have hpos : (0 : ℚ) < den := Nat.cast_pos.2 hden
  have htwo (e : ℤ) : (0 : ℚ) < 2 ^ e := zpow_pos two_pos e
  by_cases h : (num : ℚ) / den < 2 ^ ((num.log2 : ℤ) - den.log2)
  · have hscale : binaryScale num den = (num.log2 : ℤ) - den.log2 - 1 :=
      if_pos ((below_iff hden _).2 h)
    rw [hscale, sub_add_cancel]
    refine ⟨?_, h⟩
    rw [le_div_iff₀ hpos]
    calc (2 : ℚ) ^ ((num.log2 : ℤ) - den.log2 - 1) * den
        ≤ 2 ^ ((num.log2 : ℤ) - den.log2 - 1) * 2 ^ ((den.log2 : ℤ) + 1) :=
          mul_le_mul_of_nonneg_left hdenlt.le (htwo _).le
      _ = 2 ^ (num.log2 : ℤ) := by
          rw [← zpow_add₀ two_ne_zero]
          congr 1
          ring
      _ ≤ num := hnumle
  · have hscale : binaryScale num den = (num.log2 : ℤ) - den.log2 :=
      if_neg (mt (below_iff hden _).1 h)
    rw [hscale]
    refine ⟨not_lt.1 h, ?_⟩
    rw [div_lt_iff₀ hpos]
    calc (num : ℚ) < 2 ^ ((num.log2 : ℤ) + 1) := hnumlt
      _ = 2 ^ ((num.log2 : ℤ) - den.log2 + 1) * 2 ^ (den.log2 : ℤ) := by
          rw [← zpow_add₀ two_ne_zero]
          congr 1
          ring
      _ ≤ 2 ^ ((num.log2 : ℤ) - den.log2 + 1) * den :=
          mul_le_mul_of_nonneg_left hdenle (htwo _).le

theorem roundsToInt_scaled (num : Nat) (hden : 0 < den) (e : ℤ) :
    RoundsToInt ((num : ℚ) / den / 2 ^ e)
      (if e < 0 then roundHalfEven (num * twos (-e).toNat) den
        else roundHalfEven num (den * twos e.toNat)) := by
  split
  · next h =>
      have hround := roundsToInt_roundHalfEven (num * twos (-e).toNat) hden
      rw [Nat.cast_mul, cast_twos (by omega), zpow_neg, mul_div_right_comm] at hround
      rwa [div_eq_mul_inv]
  · next h =>
      have hround := roundsToInt_roundHalfEven num (Nat.mul_pos hden (twos_pos e.toNat))
      rwa [Nat.cast_mul, cast_twos (by omega), ← div_div] at hround

/-- The rounded integer is on the same side of an integer that the rational is on. -/
theorem RoundsToInt.le_of_lt {x : ℚ} {m k : Nat} (h : RoundsToInt x m) (hx : x < k) : m ≤ k := by
  obtain ⟨hlow, -⟩ := abs_le.1 h.1
  have : (m : ℚ) < (k + 1 : Nat) := by
    push_cast
    linarith
  exact Nat.lt_succ_iff.1 (Nat.cast_lt.1 this)

theorem RoundsToInt.ge_of_le {x : ℚ} {m k : Nat} (h : RoundsToInt x m) (hx : k ≤ x) : k ≤ m := by
  obtain ⟨-, hhigh⟩ := abs_le.1 h.1
  have : (k : ℚ) < (m + 1 : Nat) := by
    push_cast
    linarith
  exact Nat.lt_succ_iff.1 (Nat.cast_lt.1 this)

theorem rounds_nearestBits (hden : 0 < den) : Rounds ((num : ℚ) / den) (nearestBits num den) := by
  unfold nearestBits
  split
  · next h =>
      rw [h, Nat.cast_zero, zero_div]
      exact .of_small le_rfl (zpow_pos two_pos _)
  · next h =>
      obtain ⟨hlow, hhigh⟩ := binaryScale_bounds (Nat.pos_of_ne_zero h) hden
      dsimp only
      generalize hulp : max (binaryScale num den - 52) (-1074) = ulp
      have hround := roundsToInt_scaled num hden ulp
      generalize (if ulp < 0 then roundHalfEven (num * twos (-ulp).toNat) den
        else roundHalfEven num (den * twos ulp.toNat)) = m at hround ⊢
      obtain ⟨n, hn⟩ : ∃ n : Nat, ulp = n - 1074 := ⟨(ulp + 1074).toNat, by omega⟩
      have hspacing : (2 : ℚ) ^ ulp = spacing n := by rw [hn, spacing]
      have hvalue : (num : ℚ) / den = (num : ℚ) / den / 2 ^ ulp * spacing n := by
        rw [hspacing, div_mul_cancel₀ _ (spacing_pos n).ne']
      have hsize : (num : ℚ) / den / 2 ^ ulp < (2 ^ 53 : Nat) := by
        rw [div_lt_iff₀ (zpow_pos two_pos _), Nat.cast_pow, Nat.cast_ofNat, ← zpow_natCast,
          ← zpow_add₀ two_ne_zero]
        exact hhigh.trans_le (zpow_le_zpow_right₀ one_le_two (by omega))
      have hleast : n = 0 ∨ (2 ^ 52 : Nat) ≤ (num : ℚ) / den / 2 ^ ulp := by
        rw [le_div_iff₀ (zpow_pos two_pos _), Nat.cast_pow, Nat.cast_ofNat, ← zpow_natCast,
          ← zpow_add₀ two_ne_zero]
        by_cases hn : n = 0
        · exact .inl hn
        · exact .inr ((zpow_le_zpow_right₀ one_le_two (by omega)).trans hlow)
      have hm := hround.le_of_lt hsize
      have hm' : n = 0 ∨ 2 ^ 52 ≤ m := hleast.imp_right fun h => hround.ge_of_le h
      have hbits : (if m < hiddenBit then m
          else (ulp + 1075).toNat * hiddenBit + (m - hiddenBit)) = n * hiddenBit + m := by
        rw [hiddenBit_eq]
        split <;> omega
      rw [hbits]
      by_cases hfinite : n ≤ 2045
      · have hgrid : Grid n m := ⟨hfinite, hm, hm'⟩
        rw [min_eq_left hgrid.le_infinityBits, hvalue]
        refine .of_grid hgrid hround (hleast.imp_right fun h => le_trans ?_ h)
        norm_num
      · have hoverflow : infinityBits ≤ n * hiddenBit + m := by
          rw [hiddenBit_eq, infinityBits_eq]
          omega
        rw [min_eq_right hoverflow]
        refine .of_large (le_trans (zpow_le_zpow_right₀ one_le_two ?_) hlow)
        omega

end

/-! ## From bits to a double and back -/

section

open Float.Model Float.Model.UnpackedFloat

theorem not_isNaNBits {b : BitVec Format.binary64.numBits}
    (h : b.toNat % signBit ≤ infinityBits) : ¬isNaNBits b = true := by
  rw [isNaNBits, decide_eq_true_eq]
  rintro ⟨hones, hmantissa⟩
  have hleast := (exponent_eq_ones_iff b).1 hones
  apply hmantissa
  apply BitVec.eq_of_toNat_eq
  rw [toNat_mantissa, BitVec.toNat_ofNat, Nat.zero_mod]
  rw [infinityBits_eq, signBit_eq] at h hleast
  omega

/-- Only not-a-number has bits that are not kept. -/
theorem toBits_ofBits {bits : Nat} (hsize : bits < 2 ^ 64)
    (h : bits % signBit ≤ infinityBits) :
    (Float.ofBits (UInt64.ofNat bits)).toBits.toNat = bits := by
  have hbits : (UInt64.ofNat bits).toBitVec.toNat = bits := UInt64.toNat_ofNat_of_lt' hsize
  have hback := @pack_unpack .binary64 (UInt64.ofNat bits).toBitVec (by decide)
  rw [if_neg (not_isNaNBits (by rwa [hbits]))] at hback
  calc (Float.ofBits (UInt64.ofNat bits)).toBits.toNat
      = (UnpackedFloat.pack .binary64
          (UnpackedFloat.unpack .binary64 (UInt64.ofNat bits).toBitVec)).toNat := rfl
    _ = bits := by rw [hback, hbits]

theorem eq_of_toBits {x y : Float} (h : x.toBits.toNat = y.toBits.toNat) : x = y :=
  Float.toBits_inj.1 (UInt64.toNat_inj.1 h)

end

/-! ## Decimals -/

/-- The double that is right for a rational, given with its sign. -/
def IsNearest (negative : Bool) (q : ℚ) (x : Float) : Prop :=
  ∃ b, Rounds q b ∧ x.toBits.toNat = if negative then b + signBit else b

theorem IsNearest.unique {negative : Bool} {q : ℚ} {x y : Float} (hx : IsNearest negative q x)
    (hy : IsNearest negative q y) : x = y := by
  obtain ⟨b, hb, hxbits⟩ := hx
  obtain ⟨b', hb', hybits⟩ := hy
  rw [← hb.unique hb', ← hxbits] at hybits
  exact eq_of_toBits hybits.symm

theorem Rounds.isNearest {negative : Bool} {q : ℚ} {b : Nat} (h : Rounds q b) :
    IsNearest negative q
      (Float.ofBits (UInt64.ofNat (if negative then b + signBit else b))) := by
  have hb := h.1
  refine ⟨b, h, ?_⟩
  rw [infinityBits_eq] at hb
  cases negative with
  | false =>
      refine @toBits_ofBits b (by omega) ?_
      rw [signBit_eq, infinityBits_eq]
      omega
  | true =>
      refine @toBits_ofBits (b + signBit) ?_ ?_
      · rw [signBit_eq]
        omega
      · rw [signBit_eq, infinityBits_eq]
        omega

/-- Being finite is a question of the magnitude. -/
theorem IsNearest.isFinite_of_le {negative : Bool} {q : ℚ} {x : Float}
    (h : IsNearest negative q x) (hle : q ≤ 2 ^ (1023 : ℤ)) :
    x.isFinite = true := by
  obtain ⟨b, hb, hbits⟩ := h
  have hlt := hb.lt_infinityBits hle
  rw [isFinite_iff, hbits]
  rw [infinityBits_eq] at hlt ⊢
  rw [signBit_eq]
  split <;> omega

namespace Scientific

/-- The rational that a decimal is, its sign apart. -/
def value (x : Scientific) : ℚ := x.digits * 10 ^ x.exponent

variable {x : Scientific}

theorem value_lt (x : Scientific) :
    x.value < 10 ^ (((Nat.toDigits 10 x.digits).length : ℤ) + x.exponent) := by
  have hlt := (Nat.length_toDigits_le_iff (by decide) Nat.length_toDigits_pos).1
    (Nat.le_refl (Nat.toDigits 10 x.digits).length)
  rw [value, zpow_add₀ (by norm_num), zpow_natCast]
  exact mul_lt_mul_of_pos_right (mod_cast hlt) (zpow_pos (by norm_num) _)

theorem le_value (h : x.digits ≠ 0) :
    10 ^ (((Nat.toDigits 10 x.digits).length : ℤ) - 1 + x.exponent) ≤ x.value := by
  obtain ⟨k, hk⟩ := Nat.exists_eq_add_one_of_ne_zero
    (Nat.length_toDigits_pos (b := 10) (n := x.digits)).ne'
  have hle : 10 ^ k ≤ x.digits := by
    cases k with
    | zero => exact Nat.pos_of_ne_zero h
    | succ k =>
        have hlonger : ¬(Nat.toDigits 10 x.digits).length ≤ k + 1 := by omega
        rw [Nat.length_toDigits_le_iff (by decide) k.succ_pos] at hlonger
        exact Nat.not_lt.1 hlonger
  rw [value, hk, Nat.cast_succ, add_sub_cancel_right, zpow_add₀ (by norm_num), zpow_natCast]
  exact mul_le_mul_of_nonneg_right (mod_cast hle) (zpow_pos (by norm_num) _).le

/-- The nearest double is found, also where no power is computed for it. -/
theorem isNearest_toFloat (x : Scientific) : IsNearest x.negative x.value x.toFloat := by
  have hlarge : (2 : ℚ) ^ (1024 : ℤ) ≤ 10 ^ (310 : ℤ) := by
    have : 2 ^ 1024 ≤ 10 ^ 310 := by decide +kernel
    exact_mod_cast this
  have hsmall : (10 : ℚ) ^ (-331 : ℤ) ≤ 2 ^ (-1075 : ℤ) := by
    have : 2 ^ 1075 ≤ 10 ^ 331 := by decide +kernel
    rw [zpow_neg, zpow_neg]
    exact inv_anti₀ (zpow_pos two_pos _) (by exact_mod_cast this)
  have hlt := x.value_lt
  unfold toFloat
  dsimp only
  apply Rounds.isNearest
  split
  · next h =>
      rw [value, h, Nat.cast_zero, zero_mul]
      exact .of_small le_rfl (zpow_pos two_pos _)
  next hpos =>
  split
  · next h =>
      have hle := le_value hpos
      exact .of_large (hlarge.trans ((zpow_le_zpow_right₀ (by norm_num) (by omega)).trans hle))
  split
  · next h =>
      have hpower : (10 : ℚ) ^ (((Nat.toDigits 10 x.digits).length : ℤ) + x.exponent) ≤
          10 ^ (-331 : ℤ) := zpow_le_zpow_right₀ (by norm_num) (by omega)
      refine .of_small ?_ (hlt.trans_le (hpower.trans hsmall))
      exact mul_nonneg (Nat.cast_nonneg _) (zpow_pos (by norm_num) _).le
  have htens {e : ℤ} (h : 0 ≤ e) : (tens e.toNat : ℚ) = 10 ^ e := by
    rw [tens, Nat.pow_eq, Nat.cast_pow, Nat.cast_ofNat, ← zpow_natCast, Int.toNat_of_nonneg h]
  split
  · next h =>
      have hvalue : x.value = (x.digits : ℚ) / tens (-x.exponent).toNat := by
        rw [value, htens (by omega), zpow_neg, div_inv_eq_mul]
      rw [hvalue]
      exact rounds_nearestBits (Nat.pow_pos (by decide))
  · next h =>
      have hvalue : x.value = ((x.digits * tens x.exponent.toNat : Nat) : ℚ) / (1 : Nat) := by
        rw [value, Nat.cast_mul, htens (by omega), Nat.cast_one, div_one]
      rw [hvalue]
      exact rounds_nearestBits Nat.one_pos

end Scientific

theorem isNearest_ofInt (i : ℤ) : IsNearest (decide (i < 0)) i.natAbs (ofInt i) := by
  have h := Scientific.isNearest_toFloat ⟨decide (i < 0), i.natAbs, 0⟩
  rwa [Scientific.value, zpow_zero, mul_one] at h

end RequestLog.Decimal
