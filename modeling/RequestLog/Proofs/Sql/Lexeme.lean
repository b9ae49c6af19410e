import RequestLog.Proofs.Decimal.Digits
import RequestLog.Proofs.Sql.Parts
import RequestLog.Sql.Token

/-!
# Cutting a text that was put together from parts

The lexemes of a text are those of its parts, one part after the other, as long
as no run of characters goes across a seam. The texts of expressions have a blank
or a mark on one side of every seam, and these characters join nothing
(`lexemes_seam_left`, `lexemes_seam_right`). So the lexemes of an expression follow
its tree, which is all that the rest of the theory needs to know about characters.
-/

namespace RequestLog.Sql

/-- A character that is never part of a longer run. -/
def standsAlone (c : Char) : Bool := charClass c == .blank || charClass c == .mark

theorem joins_eq_false_of_standsAlone {c : Char} {cs : List Char}
    (h : standsAlone c = true) : joins c cs = false := by
  rw [standsAlone] at h
  rw [joins]
  cases hc : charClass c <;> rw [hc] at h <;> first | rfl | cases h

theorem joins_cons_eq_false {c d : Char} {cs : List Char}
    (h : standsAlone d = true) : joins c (d :: cs) = false := by
  rw [standsAlone] at h
  rw [joins, List.head?_cons, Option.any_some]
  cases hd : charClass d <;> rw [hd] at h <;> cases charClass c <;>
    first | rfl | cases h

theorem joins_nil {c : Char} : joins c [] = false := Bool.and_false _

/-- A character that something joins is in a run. -/
theorem runs_ne_nil_of_joins {c : Char} {cs : List Char}
    (h : joins c cs = true) : runs cs ≠ [] := by
  cases cs with
  | nil => rw [joins_nil] at h; cases h
  | cons d rest =>
      have hd : (charClass d == .blank) = false := by
        rw [joins, List.head?_cons, Option.any_some] at h
        cases hd : charClass d <;> rw [hd] at h <;> cases hc : charClass c <;>
          rw [hc] at h <;> first | rfl | cases h
      rw [runs, hd]
      simp only [Bool.false_eq_true, if_false]
      split
      · split <;> exact List.cons_ne_nil _ _
      · exact List.cons_ne_nil _ _

theorem joins_append {c d : Char} {cs ds : List Char} :
    joins c (d :: cs ++ ds) = joins c (d :: cs) := rfl

/-- Runs do not go across a seam whose last character joins nothing behind it. -/
theorem runs_append {cs ds : List Char}
    (h : ∀ c, cs.getLast? = some c → joins c ds = false) :
    runs (cs ++ ds) = runs cs ++ runs ds := by
  induction cs with
  | nil => rfl
  | cons c rest ih =>
      cases rest with
      | nil =>
          have hc := h c rfl
          rw [List.singleton_append, runs, runs, hc, joins_nil]
          cases charClass c == .blank <;> rfl
      | cons d more =>
          have ih := ih fun x hx => h x (by rw [List.getLast?_cons_cons]; exact hx)
          rw [List.cons_append, runs, runs, joins_append, ih]
          cases charClass c == .blank with
          | true => rfl
          | false =>
              cases hj : joins c (d :: more) with
              | false => rfl
              | true =>
                  obtain ⟨run, tail, hrun⟩ :=
                    List.exists_cons_of_ne_nil (runs_ne_nil_of_joins hj)
                  simp [hrun]

theorem lexemes_append {s t : String}
    (h : ∀ c, s.toList.getLast? = some c → joins c t.toList = false) :
    lexemes (s ++ t) = lexemes s ++ lexemes t := by
  rw [lexemes, String.toList_append, runs_append h, List.map_append]
  rfl

/-- A text whose first character joins nothing. -/
def beginsAlone (s : String) : Bool := s.toList.head?.any standsAlone

/-- A text whose last character joins nothing. -/
def endsAlone (s : String) : Bool := s.toList.getLast?.any standsAlone

theorem lexemes_after {sep t : String} (h : endsAlone sep = true) :
    lexemes (sep ++ t) = lexemes sep ++ lexemes t := by
  refine lexemes_append fun c hc => joins_eq_false_of_standsAlone ?_
  rw [endsAlone, hc] at h
  exact h

theorem lexemes_before {s sep : String} (h : beginsAlone sep = true) :
    lexemes (s ++ sep) = lexemes s ++ lexemes sep := by
  refine lexemes_append fun c _ => ?_
  rw [beginsAlone] at h
  cases hs : sep.toList with
  | nil => rw [hs] at h; exact absurd h (by decide)
  | cons d ds => rw [hs] at h; exact joins_cons_eq_false h

theorem lexemes_between {s sep t : String} (h : beginsAlone sep = true)
    (h' : endsAlone sep = true) :
    lexemes (s ++ (sep ++ t)) = lexemes s ++ lexemes sep ++ lexemes t := by
  rw [← String.append_assoc, ← lexemes_before h]
  refine lexemes_append fun c hc => joins_eq_false_of_standsAlone ?_
  rw [endsAlone] at h'
  rw [String.toList_append, List.getLast?_append] at hc
  cases hlast : sep.toList.getLast? with
  | none => rw [hlast] at h'; exact absurd h' (by decide)
  | some d =>
      rw [hlast] at h' hc
      cases hc
      exact h'

/-! ## Words and numbers -/

theorem runs_word {cs : List Char} (hne : cs ≠ [])
    (h : ∀ c ∈ cs, charClass c = .word) : runs cs = [cs] := by
  induction cs with
  | nil => exact absurd rfl hne
  | cons c rest ih =>
      have hc := h c (List.mem_cons_self ..)
      rw [runs, joins, hc]
      cases rest with
      | nil => rfl
      | cons d more =>
          have hd := h d (List.mem_cons_of_mem _ (List.mem_cons_self ..))
          rw [List.head?_cons, Option.any_some, hd]
          rw [ih (List.cons_ne_nil _ _) fun x hx => h x (List.mem_cons_of_mem _ hx)]
          rfl

theorem lexemes_word {cs : List Char} (hne : cs ≠ [])
    (h : ∀ c ∈ cs, charClass c = .word) :
    lexemes (String.ofList cs) = [lexeme cs] := by
  rw [lexemes, String.toList_ofList, runs_word hne h]
  rfl

theorem charClass_of_isDigit {c : Char} (h : c.isDigit = true) :
    charClass c = .word := by
  have hblank : ¬(c = ' ' || c = '\n' || c = '\t') = true := by
    rintro hc
    simp only [Bool.or_eq_true, decide_eq_true_eq] at hc
    rcases hc with (rfl | rfl) | rfl <;> exact absurd h (by decide)
  rw [charClass, if_neg hblank, Char.isAlphanum, h, Bool.or_true]
  rfl

theorem charClass_of_mem_toDigits {c : Char} {n : Nat}
    (h : c ∈ Nat.toDigits 10 n) : charClass c = .word :=
  charClass_of_isDigit
    (Nat.isDigit_of_mem_toDigits (by decide) (Nat.le_refl 10) h)

theorem toDigits_cons (n : Nat) :
    ∃ c cs, Nat.toDigits 10 n = c :: cs ∧ c.isDigit = true := by
  obtain ⟨c, cs, hcs⟩ := List.exists_cons_of_ne_nil
    (Nat.toDigits_ne_nil : Nat.toDigits 10 n ≠ [])
  exact ⟨c, cs, hcs, Nat.isDigit_of_mem_toDigits (by decide) (Nat.le_refl 10)
    (by rw [hcs]; exact List.mem_cons_self ..)⟩

theorem lexemes_argument (b : Backend) (i : Nat) :
    lexemes (b.argumentText i) =
      [.argument (if b = .postgres then some i else none)] := by
  by_cases hb : b = .postgres
  · subst hb
    have hclass : charClass '$' = .word := by decide
    rw [argumentText_postgres, lexemes_word (List.cons_ne_nil _ _)]
    · simp [lexeme, hclass, wordLexeme, Decimal.spelled_toDigits]
    · intro c hc
      rcases List.mem_cons.1 hc with rfl | hc
      · exact hclass
      · exact charClass_of_mem_toDigits hc
  · rw [argumentText_mark hb, if_neg hb]
    decide

theorem intText_natural (n : Nat) :
    Decimal.intText n = String.ofList (Nat.toDigits 10 n) := by
  simp [Decimal.intText]

theorem wordLexeme_digit {c : Char} {cs : List Char} (hc : c.isDigit = true) :
    wordLexeme (c :: cs) = .number (String.ofList (c :: cs)) := by
  rw [wordLexeme]
  · rw [if_pos hc]
  · rintro rfl
    exact absurd hc (by decide)

theorem lexemes_natural (n : Nat) :
    lexemes (Decimal.intText n) = [.number (Decimal.intText n)] := by
  obtain ⟨c, cs, hcs, hc⟩ := toDigits_cons n
  rw [intText_natural, lexemes_word Nat.toDigits_ne_nil fun _ =>
    charClass_of_mem_toDigits, hcs, lexeme]
  · rw [charClass_of_isDigit hc]
    simp only [wordLexeme_digit hc]
  · rintro h
    cases h
    exact absurd hc (by decide)

theorem readInt_natural (n : Nat) :
    Decimal.readInt (Decimal.intText n) = some (n : Int) := by
  obtain ⟨c, cs, hcs, hc⟩ := toDigits_cons n
  have hsign : Decimal.splitSign (Nat.toDigits 10 n) = (false, Nat.toDigits 10 n) := by
    rw [hcs, Decimal.splitSign] <;>
      (rintro rest h; cases h; exact absurd hc (by decide))
  have hempty : (Nat.toDigits 10 n).isEmpty = false := by rw [hcs]; rfl
  have hall : (Nat.toDigits 10 n).all Char.isDigit = true :=
    List.all_eq_true.2 fun d hd =>
      Nat.isDigit_of_mem_toDigits (by decide) (Nat.le_refl 10) hd
  rw [Decimal.readInt, intText_natural, String.toList_ofList, hsign]
  simp [hempty, hall, Decimal.spelled_toDigits]

theorem numberExpr_natural {n : Nat} (hfits : Decimal.fitsSigned 64 n = true) :
    numberExpr false (Decimal.intText n) = .integer n := by
  have hread : Decimal.readInt64 (Decimal.intText n) = some (n : Int) := by
    rw [Decimal.readInt64, readInt_natural, Option.filter_some, if_pos hfits]
  simp [numberExpr, hread]

end RequestLog.Sql
