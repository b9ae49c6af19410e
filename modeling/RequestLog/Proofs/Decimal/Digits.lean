import Mathlib.Algebra.Group.Nat.Defs
import RequestLog.Proofs.Decimal.Bits

/-!
# Digits and what is made of them

Digits of a fixed length spell a number below a power of ten. In the other direction,
the text of a finite double is a number, with a minus sign in front when its sign bit
is set: digits with at most a point between them, the first character being a digit.
-/

namespace RequestLog.Decimal

/-! ## Numbers that digits spell -/

theorem digitValue_lt {c : Char} (h : c.isDigit = true) : digitValue c < 10 := by
  have hnine : c.toNat ≤ '9'.toNat := by
    simp only [Char.isDigit, Bool.and_eq_true, decide_eq_true_eq] at h
    exact h.2
  have hchars : '9'.toNat = 57 ∧ '0'.toNat = 48 := by decide
  rw [digitValue]
  omega

/-- Digits that are appended multiply what is there, and do not reach the next. -/
theorem foldl_digits_lt {ds : List Char} (h : ∀ c ∈ ds, c.isDigit = true) (n : Nat) :
    ds.foldl (fun n c => 10 * n + digitValue c) n < (n + 1) * 10 ^ ds.length := by
  induction ds generalizing n with
  | nil => simp
  | cons c rest ih =>
      have hc := digitValue_lt (h c (List.mem_cons_self ..))
      have hrest := ih (fun d hd => h d (List.mem_cons_of_mem _ hd)) (10 * n + digitValue c)
      have hstep : (10 * n + digitValue c + 1) * 10 ^ rest.length ≤
          (10 * (n + 1)) * 10 ^ rest.length := Nat.mul_le_mul_right _ (by omega)
      rw [List.foldl_cons, List.length_cons, Nat.pow_succ]
      calc rest.foldl (fun n c => 10 * n + digitValue c) (10 * n + digitValue c)
          < (10 * n + digitValue c + 1) * 10 ^ rest.length := hrest
        _ ≤ (10 * (n + 1)) * 10 ^ rest.length := hstep
        _ = (n + 1) * (10 ^ rest.length * 10) := by
          rw [Nat.mul_comm 10, Nat.mul_assoc, Nat.mul_comm 10]

theorem spelled_lt {ds : List Char} (h : ∀ c ∈ ds, c.isDigit = true) :
    spelled ds < 10 ^ ds.length := by
  have hall := foldl_digits_lt h 0
  rwa [Nat.zero_add, Nat.one_mul] at hall

theorem spelled_toDigits (n : Nat) : spelled (Nat.toDigits 10 n) = n :=
  Nat.ofDigitChars_ten_toDigits

/-- The digits of a number do not begin with a zero, unless the number is zero. -/
theorem head_toDigits {n : Nat} (hn : 0 < n) : (Nat.toDigits 10 n).head? ≠ some '0' := by
  induction n using Nat.strongRecOn with
  | _ n ih =>
      by_cases hsmall : n < 10
      · rw [Nat.toDigits_of_lt_base hsmall]
        have hdigits : ∀ n < 10, 0 < n → [Nat.digitChar n].head? ≠ some '0' := by decide
        exact hdigits n hsmall hn
      · have hhead := ih (n / 10) (by omega) (by omega)
        rw [Nat.toDigits_of_base_le (by decide) (Nat.not_lt.1 hsmall), List.head?_append]
        cases hfirst : (Nat.toDigits 10 (n / 10)).head? with
        | none => exact absurd (List.head?_eq_none_iff.1 hfirst) Nat.toDigits_ne_nil
        | some c => rwa [hfirst] at hhead

/-! ## Digits in fixed columns -/

theorem digitChar_digit : ∀ n < 10, n.digitChar.isDigit = true ∧ digitValue n.digitChar = n := by
  decide

/-- The last column has the last digit. -/
theorem padded_succ {width : Nat} (hwidth : 0 < width) (n : Nat) :
    padded (width + 1) n = padded width (n / 10) ++ [(n % 10).digitChar] := by
  by_cases hsmall : n < 10
  · have hwidth : zeros width = zeros (width - 1) ++ ['0'] := by
      rw [zeros, zeros, ← List.replicate_succ', Nat.sub_add_cancel hwidth]
    rw [padded, padded, Nat.toDigits_of_lt_base hsmall, Nat.div_eq_of_lt hsmall,
      Nat.mod_eq_of_lt hsmall, Nat.toDigits_zero, List.length_singleton, List.length_singleton,
      Nat.add_sub_cancel, hwidth]
  · have hsplit := Nat.toDigits_of_base_le (by decide : 1 < 10) (Nat.not_lt.1 hsmall)
    rw [padded, padded, hsplit, List.length_append, List.length_singleton,
      Nat.add_sub_add_right, List.append_assoc]

theorem padded_two {n : Nat} (h : n < 100) :
    padded 2 n = [(n / 10).digitChar, (n % 10).digitChar] := by
  rw [padded_succ Nat.one_pos, padded, Nat.toDigits_of_lt_base (by omega)]
  rfl

theorem padded_four (n : Nat) :
    padded 4 n = padded 2 (n / 100) ++ padded 2 (n % 100) := by
  have htens : n % 100 / 10 = n / 10 % 10 := by omega
  have hones : n % 100 % 10 = n % 10 := by omega
  rw [padded_succ (by decide), padded_succ (by decide), Nat.div_div_eq_div_mul,
    padded_two (n := n % 100) (by omega), htens, hones, List.append_assoc]
  rfl

theorem isDigit_zeros {n : Nat} : ∀ c ∈ zeros n, c.isDigit = true := by
  intro c hc
  rw [List.eq_of_mem_replicate hc]
  rfl

theorem isDigit_padded {width n : Nat} : ∀ c ∈ padded width n, c.isDigit = true :=
  List.forall_mem_append.2 ⟨isDigit_zeros, fun _ hc =>
    Nat.isDigit_of_mem_toDigits (by decide) (Nat.le_refl 10) hc⟩

/-- Zeros in front spell nothing. -/
theorem spelled_padded (width n : Nat) : spelled (padded width n) = n := by
  have hzeros : ∀ k : Nat, (zeros k).foldl (fun n c => 10 * n + digitValue c) 0 = 0 := by
    intro k
    induction k with
    | zero => rfl
    | succ k ih => exact ih
  rw [padded, spelled, List.foldl_append, hzeros]
  exact spelled_toDigits n

theorem length_padded {width n : Nat} (hwidth : 0 < width) (h : n < 10 ^ width) :
    (padded width n).length = width := by
  induction width generalizing n with
  | zero => exact absurd hwidth (Nat.lt_irrefl 0)
  | succ width ih =>
      by_cases hone : width = 0
      · subst hone
        rw [padded, Nat.toDigits_of_lt_base (by omega)]
        rfl
      · have hwidth := Nat.pos_of_ne_zero hone
        have hless : n / 10 < 10 ^ width := by
          rw [Nat.pow_succ] at h
          omega
        rw [padded_succ hwidth, List.length_append, ih hwidth hless, List.length_singleton]

/-! ## Digits at the front of a text -/

section

variable {ds cs : List Char}

theorem takeWhile_digits (hds : ∀ d ∈ ds, d.isDigit = true)
    (hcs : ∀ c, cs.head? = some c → c.isDigit = false) :
    (ds ++ cs).takeWhile Char.isDigit = ds := by
  rw [List.takeWhile_append_of_pos hds]
  cases cs with
  | nil => simp
  | cons c rest => rw [List.takeWhile_cons, hcs c rfl]; simp

theorem dropWhile_digits (hds : ∀ d ∈ ds, d.isDigit = true)
    (hcs : ∀ c, cs.head? = some c → c.isDigit = false) :
    (ds ++ cs).dropWhile Char.isDigit = cs := by
  rw [List.dropWhile_append_of_pos hds]
  cases cs with
  | nil => rfl
  | cons c rest => rw [List.dropWhile_cons, hcs c rfl]; rfl

end

/-! ## Characters of a number -/

def numeralChar (c : Char) : Bool := c.isDigit || c == '.'

/-- Characters of an unsigned number, of which the first is a digit. -/
def Numeral (cs : List Char) : Prop :=
  cs.head?.any Char.isDigit = true ∧ ∀ c ∈ cs, numeralChar c = true

theorem numeralChar_of_isDigit {c : Char} (h : c.isDigit = true) :
    numeralChar c = true := by
  rw [numeralChar, h, Bool.true_or]

theorem isDigit_shortest (p : Parts) : ∀ c ∈ p.shortest.digits, c.isDigit = true := by
  unfold Parts.shortest
  -- Whatever grid is found; the search itself must not be unfolded.
  extract_lets i top grids
  generalize grids.findSome? _ = found
  intro c hc
  split at hc
  · have htext := List.dropWhile_subset _ (List.mem_reverse.1 hc)
    exact Nat.isDigit_of_mem_toDigits (by decide) (Nat.le_refl 10)
      (List.mem_reverse.1 htext)
  · rw [List.mem_singleton.1 hc]
    rfl

theorem isDigit_zero : ∀ c ∈ ['0'], c.isDigit = true :=
  List.forall_mem_singleton.2 rfl

theorem Numeral.of_digits {cs : List Char} (hne : cs ≠ [])
    (h : ∀ c ∈ cs, c.isDigit = true) : Numeral cs := by
  obtain ⟨c, rest, rfl⟩ := List.exists_cons_of_ne_nil hne
  exact ⟨h c (List.mem_cons_self ..), fun d hd => numeralChar_of_isDigit (h d hd)⟩

theorem Numeral.point {cs ds : List Char} (h : Numeral cs)
    (hds : ∀ c ∈ ds, c.isDigit = true) : Numeral (cs ++ '.' :: ds) := by
  obtain ⟨hhead, hall⟩ := h
  refine ⟨?_, ?_⟩
  · cases cs with
    | nil => cases hhead
    | cons c rest => exact hhead
  · rw [List.forall_mem_append, List.forall_mem_cons]
    exact ⟨hall, rfl, fun c hc => numeralChar_of_isDigit (hds c hc)⟩

theorem numeral_positional {d : Digits} (h : ∀ c ∈ d.digits, c.isDigit = true) :
    Numeral (d.positional false) := by
  simp only [Digits.positional, Bool.false_eq_true, if_false, List.append_nil]
  split
  · have hzero : Numeral ['0'] := .of_digits (by simp) isDigit_zero
    exact hzero.point (List.forall_mem_append.2 ⟨isDigit_zeros, h⟩)
  · next hpoint =>
      have hwhole : d.point.toNat ≠ 0 := by omega
      split
      · next hlen =>
          refine .of_digits ?_ (List.forall_mem_append.2 ⟨h, isDigit_zeros⟩)
          rw [← List.length_pos_iff, List.length_append, zeros, List.length_replicate]
          omega
      · next hlen =>
          refine Numeral.point (.of_digits ?_ fun c hc => h c (List.mem_of_mem_take hc))
            fun c hc => h c (List.mem_of_mem_drop hc)
          rw [← List.length_pos_iff, List.length_take]
          omega

/-- The text of a finite double: a number, and maybe a minus sign in front of it. -/
theorem sqlText_of_isFinite {x : Float} (h : x.isFinite = true) :
    ∃ cs, Numeral cs ∧
      (sqlText x = String.ofList cs ∨ sqlText x = String.ofList ('-' :: cs)) := by
  have hbits := isFinite_iff.1 h
  have hsign : ∀ (p : Prop) [Decidable p] (cs : List Char),
      String.ofList ((if p then ['-'] else []) ++ cs) = String.ofList cs ∨
        String.ofList ((if p then ['-'] else []) ++ cs) = String.ofList ('-' :: cs) := by
    intro p _ cs
    split
    · exact .inr rfl
    · exact .inl rfl
  simp only [sqlText, writeFloat]
  rw [if_neg (Nat.not_lt.2 (Nat.le_of_lt hbits)), if_neg (Nat.ne_of_lt hbits)]
  split
  · exact ⟨_, numeral_positional isDigit_zero, hsign _ _⟩
  · exact ⟨_, numeral_positional (isDigit_shortest _), hsign _ _⟩

end RequestLog.Decimal
