import Mathlib.Data.List.TakeWhile
import RequestLog.Json.Number
import RequestLog.Proofs.Decimal.Digits

/-!
# How a number is written

A number is a sign, digits without a zero in front, and perhaps a fraction and an exponent
(`Literal.Spelled`). `scanNumber` finds a literal exactly where one is spelled, as far as
what stands behind it cannot be read as more of the number; every character that could is
one of a few (`continues`).

An integer of 64 bits may be written as its digits (`Literal.value_ofInt`).
-/

namespace RequestLog.Json

/-- One digit or more. -/
def AreDigits (ds : List Char) : Prop := ds ≠ [] ∧ ∀ d ∈ ds, d.isDigit = true

inductive SpelledFraction : Option (List Char) → List Char → Prop where
  | none : SpelledFraction none []
  | some {ds : List Char} : AreDigits ds → SpelledFraction (some ds) ('.' :: ds)

/-- The sign of an exponent. -/
inductive SpelledSign : Bool → List Char → Prop where
  | bare : SpelledSign false []
  | plus : SpelledSign false ['+']
  | minus : SpelledSign true ['-']

inductive SpelledExponent : Option (Bool × List Char) → List Char → Prop where
  | none : SpelledExponent none []
  | some {e : Char} {down : Bool} {sign ds : List Char} : e = 'e' ∨ e = 'E' →
      SpelledSign down sign → AreDigits ds → SpelledExponent (some (down, ds)) (e :: (sign ++ ds))

/-- Digits of which the first is not a zero, or a zero alone. -/
def AreWhole (ds : List Char) : Prop := AreDigits ds ∧ (ds.head? = some '0' → ds = ['0'])

inductive Literal.Spelled : Literal → List Char → Prop where
  | mk {negative : Bool} {whole f e : List Char} {fraction : Option (List Char)}
      {exponent : Option (Bool × List Char)} : AreWhole whole → SpelledFraction fraction f →
      SpelledExponent exponent e →
      Spelled ⟨negative, whole, fraction, exponent⟩
        ((if negative then ['-'] else []) ++ (whole ++ (f ++ e)))

/-! ## What is scanned was spelled -/

theorem areDigits_takeWhile {cs : List Char} (h : cs.takeWhile Char.isDigit ≠ []) :
    AreDigits (cs.takeWhile Char.isDigit) :=
  ⟨h, fun _ hd => List.mem_takeWhile_imp hd⟩

theorem spelled_of_scanWhole {cs ds rest : List Char} (h : scanWhole cs = .ok (ds, rest)) :
    AreWhole ds ∧ cs = ds ++ rest := by
  have hcs : cs = cs.takeWhile Char.isDigit ++ cs.dropWhile Char.isDigit :=
    List.takeWhile_append_dropWhile.symm
  simp only [scanWhole] at h
  split at h
  · cases h
  · cases h
  · next hnone hzero =>
      cases h
      refine ⟨⟨areDigits_takeWhile hnone, fun hhead => ?_⟩, hcs⟩
      cases hds : cs.takeWhile Char.isDigit with
      | nil => exact absurd hds hnone
      | cons d more =>
          rw [hds] at hhead
          obtain rfl : d = '0' := Option.some.inj hhead
          cases more with
          | nil => rfl
          | cons d' more => exact absurd hds (hzero d' more)

theorem spelled_of_scanFraction {cs rest : List Char} {o : Option (List Char)}
    (h : scanFraction cs = .ok (o, rest)) : ∃ f, SpelledFraction o f ∧ cs = f ++ rest := by
  simp only [scanFraction] at h
  split at h
  · next more =>
      split at h
      · cases h
      · next hdigits =>
          cases h
          refine ⟨_, .some (areDigits_takeWhile fun hnone => hdigits ?_), ?_⟩
          · rw [hnone]
            rfl
          · rw [List.cons_append, List.takeWhile_append_dropWhile]
  · cases h
    exact ⟨[], .none, rfl⟩

theorem spelledSign_splitSign (cs : List Char) :
    ∃ sign, SpelledSign (Decimal.splitSign cs).1 sign ∧
      cs = sign ++ (Decimal.splitSign cs).2 := by
  unfold Decimal.splitSign
  split
  · exact ⟨_, .plus, rfl⟩
  · exact ⟨_, .minus, rfl⟩
  · exact ⟨_, .bare, rfl⟩

theorem spelled_of_scanExponent {cs rest : List Char} {o : Option (Bool × List Char)}
    (h : scanExponent cs = .ok (o, rest)) : ∃ e, SpelledExponent o e ∧ cs = e ++ rest := by
  simp only [scanExponent] at h
  split at h
  · next c more =>
      split at h
      · next hmark =>
          split at h
          · cases h
          · next hdigits =>
              cases h
              obtain ⟨sign, hsign, hmore⟩ := spelledSign_splitSign more
              refine ⟨_, .some (by simpa using hmark) hsign
                (areDigits_takeWhile fun hnone => hdigits ?_), ?_⟩
              · rw [hnone]
                rfl
              · rw [List.cons_append, List.append_assoc, List.takeWhile_append_dropWhile,
                  ← hmore]
      · cases h
        exact ⟨[], .none, rfl⟩
  · cases h
    exact ⟨[], .none, rfl⟩

theorem spelled_of_scanUnsigned {negative : Bool} {cs rest : List Char} {l : Literal}
    (h : scanUnsigned negative cs = .ok (l, rest)) :
    ∃ w, l.Spelled ((if negative then ['-'] else []) ++ w) ∧ cs = w ++ rest := by
  unfold scanUnsigned at h
  split at h
  · cases h
  · next hwhole =>
      split at h
      · cases h
      · next hfraction =>
          split at h
          · cases h
          · next hexponent =>
              cases h
              obtain ⟨hw, rfl⟩ := spelled_of_scanWhole hwhole
              obtain ⟨f, hf, rfl⟩ := spelled_of_scanFraction hfraction
              obtain ⟨e, he, rfl⟩ := spelled_of_scanExponent hexponent
              exact ⟨_, .mk hw hf he, by simp only [List.append_assoc]⟩

theorem spelled_of_scanNumber {cs rest : List Char} {l : Literal}
    (h : scanNumber cs = .ok (l, rest)) : ∃ w, l.Spelled w ∧ cs = w ++ rest := by
  unfold scanNumber at h
  split at h
  · obtain ⟨w, hw, rfl⟩ := spelled_of_scanUnsigned h
    exact ⟨_, hw, rfl⟩
  · obtain ⟨w, hw, rfl⟩ := spelled_of_scanUnsigned h
    exact ⟨_, hw, rfl⟩

/-! ## What is spelled is scanned -/

/-- A character that could be read as more of a number that stands before it. -/
def continues (c : Char) : Bool := c.isDigit || c = '.' || c = 'e' || c = 'E'

/-- Nothing that stands here is more of a number. -/
def Stops (cs : List Char) : Prop := ∀ c, cs.head? = some c → continues c = false

section

variable {rest : List Char}

theorem Stops.not_digit (h : Stops rest) : ∀ c, rest.head? = some c → c.isDigit = false := by
  intro c hc
  have hstop := h c hc
  simp only [continues, Bool.or_eq_false_iff] at hstop
  exact hstop.1.1.1

theorem AreDigits.not_sign {ds : List Char} (h : AreDigits ds) (rest : List Char) :
    ∀ c, (ds ++ rest).head? = some c → c ≠ '+' ∧ c ≠ '-' := by
  obtain ⟨d, more, rfl⟩ := List.exists_cons_of_ne_nil h.1
  have hd := h.2 d List.mem_cons_self
  rintro c hc
  obtain rfl : d = c := Option.some.inj hc
  constructor <;> rintro rfl <;> exact absurd hd (by decide)

theorem splitSign_spelled {down : Bool} {sign cs : List Char} (h : SpelledSign down sign)
    (hcs : ∀ c, cs.head? = some c → c ≠ '+' ∧ c ≠ '-') :
    Decimal.splitSign (sign ++ cs) = (down, cs) := by
  cases h with
  | plus => rfl
  | minus => rfl
  | bare =>
      rw [List.nil_append]
      unfold Decimal.splitSign
      split
      · exact absurd rfl (hcs _ rfl).1
      · exact absurd rfl (hcs _ rfl).2
      · rfl

theorem scanExponent_spelled {o : Option (Bool × List Char)} {e : List Char}
    (h : SpelledExponent o e) (hstop : Stops rest) : scanExponent (e ++ rest) = .ok (o, rest) := by
  cases h with
  | none =>
      cases rest with
      | nil => rfl
      | cons c more =>
          have hc := hstop c rfl
          simp only [continues, Bool.or_eq_false_iff, decide_eq_false_iff_not] at hc
          rw [List.nil_append, scanExponent, if_neg (by simp [hc.1.2, hc.2])]
  | @some e down sign ds hmark hsign hds =>
      have hsplit := splitSign_spelled hsign (hds.not_sign rest)
      rw [List.cons_append, scanExponent, if_pos (by simpa using hmark), List.append_assoc, hsplit]
      simp only [Decimal.takeWhile_digits hds.2 hstop.not_digit,
        Decimal.dropWhile_digits hds.2 hstop.not_digit]
      rw [if_neg (by simpa using hds.1)]

/-- A fraction, an exponent and what stops a number do not begin with a digit. -/
theorem head_not_digit {fraction : Option (List Char)} {exponent : Option (Bool × List Char)}
    {f e : List Char} (hf : SpelledFraction fraction f) (he : SpelledExponent exponent e)
    (hstop : Stops rest) : ∀ c, (f ++ (e ++ rest)).head? = some c → c.isDigit = false := by
  intro c hc
  cases hf with
  | some _ =>
      obtain rfl : '.' = c := Option.some.inj hc
      rfl
  | none =>
      cases he with
      | none => exact hstop.not_digit c hc
      | @some e _ _ _ hmark _ _ =>
          obtain rfl : e = c := Option.some.inj hc
          obtain rfl | rfl := hmark <;> rfl

theorem scanFraction_spelled {fraction : Option (List Char)}
    {exponent : Option (Bool × List Char)} {f e : List Char} (hf : SpelledFraction fraction f)
    (he : SpelledExponent exponent e) (hstop : Stops rest) :
    scanFraction (f ++ (e ++ rest)) = .ok (fraction, e ++ rest) := by
  cases hf with
  | @some ds hds =>
      have hhead : ∀ c, (e ++ rest).head? = some c → c.isDigit = false :=
        head_not_digit .none he hstop
      rw [List.cons_append, scanFraction]
      simp only [Decimal.takeWhile_digits hds.2 hhead, Decimal.dropWhile_digits hds.2 hhead]
      rw [if_neg (by simpa using hds.1)]
  | none =>
      have hpoint : ∀ more, e ++ rest ≠ '.' :: more := by
        intro more heq
        cases he with
        | none =>
            have hc := hstop '.' (by rw [← List.nil_append rest, heq]; rfl)
            exact absurd hc (by decide)
        | some hmark _ _ =>
            obtain rfl | rfl := hmark <;> cases heq
      unfold scanFraction
      split
      · next more heq => exact absurd heq (hpoint more)
      · rfl

theorem scanWhole_spelled {ds : List Char} (hds : AreWhole ds)
    (hrest : ∀ c, rest.head? = some c → c.isDigit = false) :
    scanWhole (ds ++ rest) = .ok (ds, rest) := by
  simp only [scanWhole, Decimal.takeWhile_digits hds.1.2 hrest,
    Decimal.dropWhile_digits hds.1.2 hrest]
  split
  · exact absurd rfl hds.1.1
  · exact absurd (hds.2 rfl) (by simp)
  · rfl

theorem scanNumber_spelled {l : Literal} {cs : List Char} (h : l.Spelled cs)
    (hstop : Stops rest) : scanNumber (cs ++ rest) = .ok (l, rest) := by
  obtain @⟨negative, whole, f, e, fraction, exponent, hwhole, hf, he⟩ := h
  have hunsigned : scanUnsigned negative (whole ++ (f ++ (e ++ rest))) =
      .ok (⟨negative, whole, fraction, exponent⟩, rest) := by
    simp only [scanUnsigned, scanWhole_spelled hwhole (head_not_digit hf he hstop),
      scanFraction_spelled hf he hstop, scanExponent_spelled he hstop]
  simp only [List.append_assoc]
  cases negative with
  | true => exact hunsigned
  | false =>
      obtain ⟨d, more, rfl⟩ := List.exists_cons_of_ne_nil hwhole.1.1
      have hd := hwhole.1.2 d List.mem_cons_self
      unfold scanNumber
      split
      · next heq =>
          cases heq
          exact absurd hd (by decide)
      · exact hunsigned

end

/-- A number begins with a sign or a digit. -/
theorem Literal.Spelled.head {l : Literal} {cs : List Char} (h : l.Spelled cs) :
    ∃ c more, cs = c :: more ∧ (c = '-' ∨ c.isDigit = true) := by
  obtain @⟨negative, whole, f, e, fraction, exponent, hwhole, hf, he⟩ := h
  cases negative with
  | true => exact ⟨'-', _, rfl, .inl rfl⟩
  | false =>
      obtain ⟨d, more, rfl⟩ := List.exists_cons_of_ne_nil hwhole.1.1
      exact ⟨d, _, rfl, .inr (hwhole.1.2 d List.mem_cons_self)⟩

/-! ## Integers -/

theorem le_foldl_digits (ds : List Char) (n : Nat) :
    n ≤ ds.foldl (fun n c => 10 * n + Decimal.digitValue c) n := by
  induction ds generalizing n with
  | nil => exact Nat.le_refl n
  | cons d rest ih =>
      have hrest := ih (10 * n + Decimal.digitValue d)
      rw [List.foldl_cons]
      omega

/-- Digits whose number fits the word are all taken into it. -/
theorem collect_of_le {ds : List Char} {n : Nat}
    (h : ds.foldl (fun n c => 10 * n + Decimal.digitValue c) n ≤ wordMax) :
    collect n ds = (ds.foldl (fun n c => 10 * n + Decimal.digitValue c) n, 0) := by
  induction ds generalizing n with
  | nil => rfl
  | cons d rest ih =>
      rw [List.foldl_cons] at h ⊢
      have hnext := Nat.le_trans (le_foldl_digits rest (10 * n + Decimal.digitValue d)) h
      simp only [collect]
      rw [if_neg (Nat.not_lt.2 hnext), ih h]

theorem areWhole_toDigits (n : Nat) : AreWhole (Nat.toDigits 10 n) := by
  refine ⟨⟨Nat.toDigits_ne_nil, fun d hd =>
    Nat.isDigit_of_mem_toDigits (by decide) (Nat.le_refl 10) hd⟩, fun hhead => ?_⟩
  cases n with
  | zero => exact Nat.toDigits_zero 10
  | succ n => exact absurd hhead (Decimal.head_toDigits (Nat.succ_pos n))

/-- An integer as it is written. -/
def Literal.ofInt (i : Int) : Literal := ⟨i < 0, Nat.toDigits 10 i.natAbs, none, none⟩

theorem Literal.ofInt_spelled (i : Int) :
    (Literal.ofInt i).Spelled (Decimal.intText i).toList := by
  have h : (Literal.ofInt i).Spelled _ := .mk (areWhole_toDigits i.natAbs) .none .none
  simp only [List.append_nil, decide_eq_true_eq] at h
  rwa [Decimal.intText, String.toList_ofList]

theorem Literal.value_ofInt {i : Int} (hi : Decimal.fitsSigned 64 i = true) :
    (Literal.ofInt i).value = .ok (.int i) := by
  have htwos : Decimal.twos 63 = 2 ^ 63 := rfl
  have hword : wordMax = 2 ^ 64 - 1 := rfl
  simp only [Decimal.fitsSigned, Bool.and_eq_true, decide_eq_true_eq, Nat.reduceSub, htwos] at hi
  have hcollect : collect 0 (Nat.toDigits 10 i.natAbs) = (i.natAbs, 0) := by
    have hspelled := Decimal.spelled_toDigits i.natAbs
    unfold Decimal.spelled at hspelled
    rw [collect_of_le (by omega), hspelled]
  simp only [value, ofInt, hcollect, Option.isNone_none, Bool.and_self, decide_true, if_true]
  by_cases hneg : i < 0
  · have hsize : ¬ (i.natAbs = 0 || decide (Decimal.twos 63 < i.natAbs)) = true := by
      simp only [Bool.or_eq_true, decide_eq_true_eq]
      omega
    rw [if_neg hsize]
    simp only [hneg, decide_true, Bool.not_true, Bool.false_eq_true, if_false]
    congr 2
    omega
  · simp only [hneg, decide_false, Bool.not_false, if_true]
    congr 2
    omega

end RequestLog.Json
