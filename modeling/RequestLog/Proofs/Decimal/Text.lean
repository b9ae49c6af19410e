import RequestLog.Proofs.Decimal.Nearest
import RequestLog.Proofs.Json.Number

/-!
# Texts that spell numbers

A text spells an integer when it is digits with an optional sign, and a rational when
there may be a point among the digits, at either end too, and an exponent behind them.
The readers accept these texts and no others, and they give the integer and the nearest
double. Apart from that three words are read as doubles, none of which is finite.
-/

namespace RequestLog.Decimal

open Json (AreDigits SpelledSign SpelledExponent)

/-! ## What a text spells -/

inductive SpellsInt : List Char → Int → Prop where
  | mk {negative : Bool} {sign ds : List Char} : SpelledSign negative sign → AreDigits ds →
      SpellsInt (sign ++ ds) (if negative then -(spelled ds : Int) else spelled ds)

/-- A decimal point and what is behind it; without a point there is nothing. -/
inductive SpelledFraction : List Char → List Char → Prop where
  | none : SpelledFraction [] []
  | some {ds : List Char} : (∀ d ∈ ds, d.isDigit = true) → SpelledFraction ds ('.' :: ds)

/-- The exponent that an optional part spells. -/
def exponentOf : Option (Bool × List Char) → Int
  | none => 0
  | some (down, ds) => if down then -(spelled ds : Int) else spelled ds

/-- A text of a rational, of which the sign is kept apart because a zero has one too. -/
inductive SpellsNumber : List Char → Bool → ℚ → Prop where
  | mk {negative : Bool} {exponent : Option (Bool × List Char)}
      {sign whole ds fraction e : List Char} : SpelledSign negative sign →
      (∀ d ∈ whole, d.isDigit = true) → SpelledFraction ds fraction → whole ++ ds ≠ [] →
      SpelledExponent exponent e →
      SpellsNumber (sign ++ (whole ++ (fraction ++ e))) negative
        ((spelled whole + spelled ds / 10 ^ ds.length) * 10 ^ exponentOf exponent)

/-- A word for a double that is not finite, in any case and with any sign. -/
inductive SpellsWord : List Char → Prop where
  | mk {negative : Bool} {sign word : List Char} : SpelledSign negative sign →
      word.map Char.toLower ∈ ["nan".toList, "inf".toList, "infinity".toList] →
      SpellsWord (sign ++ word)

/-! ## Integers -/

theorem isEmpty_or_all_eq_false_iff {ds : List Char} :
    (ds.isEmpty || !ds.all Char.isDigit) = false ↔ AreDigits ds := by
  rw [Bool.or_eq_false_iff, Bool.not_eq_false', List.all_eq_true, List.isEmpty_eq_false_iff]
  exact Iff.rfl

theorem readInt_eq_some_iff {text : String} {i : Int} :
    readInt text = some i ↔ SpellsInt text.toList i := by
  constructor
  · intro h
    obtain ⟨sign, hsign, htext⟩ := Json.spelledSign_splitSign text.toList
    simp only [readInt] at h
    split at h
    · cases h
    · next hdigits =>
        rw [Bool.not_eq_true, isEmpty_or_all_eq_false_iff] at hdigits
        cases h
        have hspells := SpellsInt.mk hsign hdigits
        rwa [← htext] at hspells
  · intro h
    generalize htext : text.toList = cs at h
    obtain @⟨negative, sign, ds, hsign, hds⟩ := h
    have hnot := hds.not_sign []
    rw [List.append_nil] at hnot
    simp only [readInt, htext, Json.splitSign_spelled hsign hnot,
      isEmpty_or_all_eq_false_iff.2 hds, Bool.false_eq_true, if_false]

theorem readInt64_eq_some_iff {text : String} {i : Int} :
    readInt64 text = some i ↔ SpellsInt text.toList i ∧ fitsSigned 64 i = true := by
  rw [readInt64, Option.filter_eq_some_iff, readInt_eq_some_iff]

/-! ## Decimals -/

theorem foldl_digits (ds : List Char) (n : Nat) :
    ds.foldl (fun n c => 10 * n + digitValue c) n = n * 10 ^ ds.length + spelled ds := by
  unfold spelled
  induction ds generalizing n with
  | nil => simp
  | cons d rest ih =>
      rw [List.foldl_cons, List.foldl_cons, ih, ih (10 * 0 + digitValue d), List.length_cons]
      ring

theorem spelled_append (ds ds' : List Char) :
    spelled (ds ++ ds') = spelled ds * 10 ^ ds'.length + spelled ds' := by
  rw [spelled, List.foldl_append, foldl_digits ds', ← spelled]

/-- The point is moved behind the last digit. -/
theorem value_spelled (negative : Bool) (whole ds : List Char) (k : Int) :
    Scientific.value ⟨negative, spelled (whole ++ ds), k - ds.length⟩ =
      (spelled whole + spelled ds / 10 ^ ds.length) * 10 ^ k := by
  have hten : (10 : ℚ) ≠ 0 := by norm_num
  rw [Scientific.value, spelled_append, zpow_sub₀ hten, zpow_natCast]
  push_cast
  field_simp

theorem readExponent_spelled {exponent : Option (Bool × List Char)} {e : List Char}
    (h : SpelledExponent exponent e) : readExponent e = some (exponentOf exponent) := by
  cases h with
  | none => rfl
  | @some c down sign ds hmark hsign hds =>
      have hnot := hds.not_sign []
      rw [List.append_nil] at hnot
      rw [readExponent, if_pos (by simpa using hmark), Json.splitSign_spelled hsign hnot]
      simp only [isEmpty_or_all_eq_false_iff.2 hds, Bool.false_eq_true, if_false]
      rfl

theorem spelled_of_readExponent {cs : List Char} {k : Int} (h : readExponent cs = some k) :
    ∃ exponent, SpelledExponent exponent cs ∧ exponentOf exponent = k := by
  unfold readExponent at h
  split at h
  · cases h
    exact ⟨none, .none, rfl⟩
  · next c rest =>
      split at h
      · next hmark =>
          obtain ⟨sign, hsign, hrest⟩ := Json.spelledSign_splitSign rest
          dsimp only at h
          split at h
          · cases h
          · next hdigits =>
              rw [Bool.not_eq_true, isEmpty_or_all_eq_false_iff] at hdigits
              rw [hrest]
              exact ⟨_, .some (by simpa using hmark) hsign hdigits, Option.some.inj h⟩
      · cases h

section

variable {negative : Bool} {whole ds fraction e : List Char}
  {exponent : Option (Bool × List Char)}

/-- An exponent does not begin with a digit or a point. -/
theorem head_exponent (h : SpelledExponent exponent e) :
    ∀ c, e.head? = some c → c.isDigit = false ∧ c ≠ '.' := by
  intro c hc
  cases h with
  | none => cases hc
  | some hmark _ _ =>
      obtain rfl := Option.some.inj hc
      obtain rfl | rfl := hmark <;> decide

theorem readScientific_spelled (hwhole : ∀ d ∈ whole, d.isDigit = true)
    (hfraction : SpelledFraction ds fraction) (hne : whole ++ ds ≠ [])
    (he : SpelledExponent exponent e) :
    readScientific negative (whole ++ (fraction ++ e)) =
      some ⟨negative, spelled (whole ++ ds), exponentOf exponent - ds.length⟩ := by
  have hexponent := head_exponent he
  cases hfraction with
  | none =>
      have hdigit : ∀ c, ([] ++ e).head? = some c → c.isDigit = false :=
        fun c hc => (hexponent c hc).1
      have hpoint : ∀ more, e ≠ '.' :: more := by
        rintro more rfl
        exact (hexponent '.' rfl).2 rfl
      rw [List.append_nil] at hne
      simp only [readScientific, takeWhile_digits hwhole hdigit, dropWhile_digits hwhole hdigit]
      split
      · next more heq => exact absurd heq (hpoint more)
      · simp [hne, readExponent_spelled he]
  | some hds =>
      have hpoint : ∀ c, ('.' :: ds ++ e).head? = some c → c.isDigit = false := by
        intro c hc
        obtain rfl := Option.some.inj hc
        rfl
      have hdigit : ∀ c, e.head? = some c → c.isDigit = false := fun c hc => (hexponent c hc).1
      simp only [readScientific, takeWhile_digits hwhole hpoint, dropWhile_digits hwhole hpoint]
      simp only [List.cons_append, takeWhile_digits hds hdigit, dropWhile_digits hds hdigit,
        readExponent_spelled he]
      have hsome : ¬(whole.isEmpty && ds.isEmpty) = true := by simpa using hne
      rw [if_neg hsome]
      rfl

theorem spelled_of_readScientific {cs : List Char} {x : Scientific}
    (h : readScientific negative cs = some x) :
    ∃ whole ds fraction e exponent, cs = whole ++ (fraction ++ e) ∧
      (∀ d ∈ whole, d.isDigit = true) ∧ SpelledFraction ds fraction ∧ whole ++ ds ≠ [] ∧
      SpelledExponent exponent e ∧
      x = ⟨negative, spelled (whole ++ ds), exponentOf exponent - ds.length⟩ := by
  have hcs : cs = cs.takeWhile Char.isDigit ++ cs.dropWhile Char.isDigit :=
    List.takeWhile_append_dropWhile.symm
  have hdigits {ds : List Char} : ∀ d ∈ ds.takeWhile Char.isDigit, d.isDigit = true :=
    fun _ hd => List.mem_takeWhile_imp hd
  simp only [readScientific] at h
  split at h
  · next more hmore =>
      split at h
      · cases h
      · next hsome =>
          obtain ⟨k, hk, rfl⟩ := Option.map_eq_some_iff.1 h
          obtain ⟨exponent, he, rfl⟩ := spelled_of_readExponent hk
          refine ⟨_, _, _, _, _, ?_, hdigits, .some hdigits, by simpa using hsome, he, rfl⟩
          rw [List.cons_append, List.takeWhile_append_dropWhile, ← hmore]
          exact hcs
  · split at h
    · cases h
    · next hsome =>
        obtain ⟨k, hk, rfl⟩ := Option.map_eq_some_iff.1 h
        obtain ⟨exponent, he, rfl⟩ := spelled_of_readExponent hk
        exact ⟨_, _, _, _, _, hcs, hdigits, .none, by simpa using hsome, he, rfl⟩

end

/-! ## Doubles -/

theorem toLower_of_isDigit {c : Char} (h : c.isDigit = true) : c.toLower = c := by
  simp only [Char.isDigit, Bool.and_eq_true, decide_eq_true_eq] at h
  refine dif_neg fun hupper => ?_
  have hlarge : 'A'.val ≤ '9'.val := UInt32.le_trans hupper.1 h.2
  exact absurd hlarge (by decide)

theorem head_word {word : List Char}
    (h : word.map Char.toLower ∈ ["nan".toList, "inf".toList, "infinity".toList]) :
    ∃ c rest, word = c :: rest ∧ (c.toLower = 'n' ∨ c.toLower = 'i') := by
  cases word with
  | nil => simp at h
  | cons c rest =>
      refine ⟨c, rest, rfl, ?_⟩
      simp only [List.map_cons, String.reduceToList, List.mem_cons, List.cons.injEq,
        List.not_mem_nil, or_false] at h
      tauto

theorem or_decide_iff {p q : Prop} [Decidable p] [Decidable q] :
    (decide p || decide q) = true ↔ p ∨ q := by
  rw [Bool.or_eq_true, decide_eq_true_eq, decide_eq_true_eq]

theorem readFloat_word {text : String} (h : SpellsWord text.toList) :
    ∃ x, readFloat text = some x ∧ x.isFinite = false := by
  generalize htext : text.toList = cs at h
  obtain @⟨negative, sign, word, hsign, hword⟩ := h
  have hnot : ∀ c, word.head? = some c → c ≠ '+' ∧ c ≠ '-' := by
    obtain ⟨c, rest, rfl, hlower⟩ := head_word hword
    intro c' hc'
    obtain rfl := Option.some.inj hc'
    constructor <;> rintro rfl <;> revert hlower <;> decide
  have hnan : ∀ negative : Bool,
      (if negative = true then -(0.0 / 0.0) else 0.0 / 0.0 : Float).isFinite = false := by
    decide +kernel
  have hinfinity : ∀ negative : Bool,
      (if negative = true then -Float.ofBits (UInt64.ofNat infinityBits)
        else Float.ofBits (UInt64.ofNat infinityBits)).isFinite = false := by
    decide +kernel
  simp only [readFloat, htext, Json.splitSign_spelled hsign hnot]
  split
  · exact ⟨_, rfl, hnan negative⟩
  · next hother =>
      rw [List.mem_cons, List.mem_pair] at hword
      rw [if_pos (or_decide_iff.2 (hword.resolve_left hother))]
      exact ⟨_, rfl, hinfinity negative⟩

/-- A number begins with a digit or a point. -/
theorem head_number {whole ds fraction : List Char} (hwhole : ∀ d ∈ whole, d.isDigit = true)
    (hfraction : SpelledFraction ds fraction) (hne : whole ++ ds ≠ []) (rest : List Char) :
    ∃ c cs, whole ++ (fraction ++ rest) = c :: cs ∧ (c.isDigit = true ∨ c = '.') := by
  cases whole with
  | cons d whole => exact ⟨d, _, rfl, .inl (hwhole d List.mem_cons_self)⟩
  | nil =>
      cases hfraction with
      | none => exact absurd rfl hne
      | some hds => exact ⟨'.', _, rfl, .inr rfl⟩

theorem readFloat_number {text : String} {negative : Bool} {q : ℚ}
    (h : SpellsNumber text.toList negative q) :
    ∃ x, readFloat text = some x ∧ IsNearest negative q x := by
  generalize htext : text.toList = cs at h
  obtain @⟨negative, exponent, sign, whole, ds, fraction, e, hsign, hwhole, hfraction, hne, he⟩ := h
  have hhead := head_number hwhole hfraction hne e
  have hnot : ∀ c, (whole ++ (fraction ++ e)).head? = some c → c ≠ '+' ∧ c ≠ '-' := by
    obtain ⟨c, rest, hcs, hc⟩ := hhead
    intro c' hc'
    rw [hcs] at hc'
    obtain rfl := Option.some.inj hc'
    constructor <;> rintro rfl <;> revert hc <;> decide
  have hword : (whole ++ (fraction ++ e)).map Char.toLower ∉
      ["nan".toList, "inf".toList, "infinity".toList] := by
    intro hword
    obtain ⟨c, rest, hcs, hc⟩ := hhead
    obtain ⟨c', rest', hcs', hlower⟩ := head_word hword
    rw [hcs] at hcs'
    cases hcs'
    have hsame : c.toLower = c := by
      obtain hdigit | rfl := hc
      · exact toLower_of_isDigit hdigit
      · rfl
    rw [hsame] at hlower
    obtain rfl | rfl := hlower <;> revert hc <;> decide
  rw [List.mem_cons, List.mem_pair, not_or] at hword
  have hread : readScientific negative _ = _ := readScientific_spelled hwhole hfraction hne he
  refine ⟨_, ?_, value_spelled negative whole ds _ ▸ Scientific.isNearest_toFloat _⟩
  simp only [readFloat, htext, Json.splitSign_spelled hsign hnot]
  rw [if_neg hword.1, if_neg (mt or_decide_iff.1 hword.2), hread]
  rfl

theorem spells_of_readFloat {text : String} {x : Float} (h : readFloat text = some x) :
    SpellsWord text.toList ∧ x.isFinite = false ∨
      ∃ negative q, SpellsNumber text.toList negative q ∧ IsNearest negative q x := by
  obtain ⟨sign, hsign, htext⟩ := Json.spelledSign_splitSign text.toList
  by_cases hword : (splitSign text.toList).2.map Char.toLower ∈
      ["nan".toList, "inf".toList, "infinity".toList]
  · have hspells := SpellsWord.mk hsign hword
    rw [← htext] at hspells
    obtain ⟨y, hy, hinfinite⟩ := readFloat_word hspells
    rw [h] at hy
    cases hy
    exact .inl ⟨hspells, hinfinite⟩
  · rw [List.mem_cons, List.mem_pair, not_or] at hword
    simp only [readFloat] at h
    rw [if_neg hword.1, if_neg (mt or_decide_iff.1 hword.2)] at h
    obtain ⟨x, hx, rfl⟩ := Option.map_eq_some_iff.1 h
    obtain ⟨whole, ds, fraction, e, exponent, hcs, hwhole, hfraction, hne, he, rfl⟩ :=
      spelled_of_readScientific hx
    have hspells := SpellsNumber.mk hsign hwhole hfraction hne he
    rw [← hcs, ← htext, ← value_spelled (splitSign text.toList).1] at hspells
    exact .inr ⟨_, _, hspells, Scientific.isNearest_toFloat _⟩

end RequestLog.Decimal
