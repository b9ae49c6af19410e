import RequestLog.Proofs.Sql.Legible

/-!
# Parentheses

A text between parentheses cannot get out of them as long as every parenthesis it
closes was opened in it. `nesting` goes through a text and fails at the first that
was not; a balanced text leaves the depth as it was, at any depth. Texts that are
balanced can be put together, and since no name and no argument has a parenthesis
in it, the text of every legible expression is balanced.
-/

namespace RequestLog.Sql

/-- How many parentheses are open behind a character before which `n` were. None may
be closed when none is open. -/
def nestingStep (n : Nat) (c : Char) : Option Nat :=
  if c = '(' then some (n + 1)
  else if c = ')' then if n = 0 then none else some (n - 1)
  else some n

/-- How many parentheses are open behind a text, as long as none is closed in it that
was not opened. -/
def nesting (n : Nat) (cs : List Char) : Option Nat := cs.foldlM nestingStep n

def flat (c : Char) : Bool := c != '(' && c != ')'

theorem flat_iff {c : Char} : flat c = true ↔ c ≠ '(' ∧ c ≠ ')' := by
  rw [flat, Bool.and_eq_true, bne_iff_ne, bne_iff_ne]

/-- A text that opens what it closes and closes what it opens. -/
def Balanced (s : String) : Prop := ∀ n, nesting n s.toList = some n

theorem nesting_append (n : Nat) (cs ds : List Char) :
    nesting n (cs ++ ds) = (nesting n cs).bind fun m => nesting m ds :=
  List.foldlM_append

theorem nesting_cons (n : Nat) (c : Char) (cs : List Char) :
    nesting n (c :: cs) = (nestingStep n c).bind fun m => nesting m cs :=
  List.foldlM_cons

namespace Balanced

variable {s t : String}

theorem append (hs : Balanced s) (ht : Balanced t) : Balanced (s ++ t) := by
  intro n
  rw [String.toList_append, nesting_append, hs n, Option.bind_some, ht n]

theorem paren (h : Balanced s) : Balanced ("(" ++ (s ++ ")")) := by
  intro n
  have hopen : ("(" ++ (s ++ ")")).toList = '(' :: (s.toList ++ [')']) := by simp
  have hstep : nestingStep n '(' = some (n + 1) := rfl
  rw [hopen, nesting_cons, hstep, Option.bind_some, nesting_append, h (n + 1)]
  rfl

theorem of_flat (h : s.toList.all flat = true) : Balanced s := by
  intro n
  rw [List.all_eq_true] at h
  generalize s.toList = cs at h
  induction cs with
  | nil => rfl
  | cons c rest ih =>
      obtain ⟨hc, hrest⟩ := List.forall_mem_cons.1 h
      rw [flat_iff] at hc
      have hstep : nestingStep n c = some n := by
        rw [nestingStep, if_neg hc.1, if_neg hc.2]
      rw [nesting_cons, hstep]
      exact ih hrest

theorem commaList {ss : List String} (h : ∀ s ∈ ss, Balanced s) :
    Balanced (commaList ss) := by
  induction ss with
  | nil => exact of_flat (by decide)
  | cons s rest ih =>
      cases rest with
      | nil =>
          rw [commaList_singleton]
          exact h s (List.mem_cons_self ..)
      | cons t more =>
          obtain ⟨hs, hrest⟩ := List.forall_mem_cons.1 h
          rw [commaList_cons_cons]
          exact (hs.append (of_flat (by decide))).append (ih hrest)

end Balanced

/-! ## Names, arguments and numbers -/

theorem balanced_of_nameChar {s : String} (h : ∀ c ∈ s.toList, nameChar c = true) :
    Balanced s := by
  refine .of_flat (List.all_eq_true.2 fun c hc => flat_iff.2 ?_)
  have hchar := h c hc
  exact ⟨fun heq => absurd (heq ▸ hchar) (by decide),
    fun heq => absurd (heq ▸ hchar) (by decide)⟩

theorem balanced_plain {s : String} (h : plain s = true) : Balanced s :=
  balanced_of_nameChar fun _ => nameChar_of_mem h

theorem balanced_column {c : ColumnRef} (h : c.plain = true) : Balanced c.text := by
  rw [ColumnRef.plain, Bool.and_eq_true] at h
  have htext : c.text = c.table ++ ("." ++ c.column) := by
    rw [ColumnRef.text, ← String.append_assoc]
    rfl
  rw [htext]
  exact (balanced_plain h.1).append ((Balanced.of_flat (by decide)).append
    (balanced_plain h.2))

theorem nameChar_of_mem_toDigits {c : Char} {n : Nat} (h : c ∈ Nat.toDigits 10 n) :
    nameChar c = true := by
  have hdigit := Nat.isDigit_of_mem_toDigits (by decide) (Nat.le_refl 10) h
  rw [nameChar, Char.isAlphanum, hdigit, Bool.or_true]
  rfl

theorem balanced_argument (b : Backend) (i : Nat) : Balanced (b.argumentText i) := by
  by_cases hb : b = .postgres
  · subst hb
    have htext : Backend.argumentText .postgres i =
        "$" ++ String.ofList (Nat.toDigits 10 i) := rfl
    rw [htext]
    refine (Balanced.of_flat (by decide)).append (balanced_of_nameChar ?_)
    rw [String.toList_ofList]
    exact fun _ => nameChar_of_mem_toDigits
  · rw [argumentText_mark hb]
    exact .of_flat (by decide)

theorem balanced_natural (k : Nat) : Balanced (Decimal.intText k) := by
  refine balanced_of_nameChar ?_
  rw [intText_natural, String.toList_ofList]
  exact fun _ => nameChar_of_mem_toDigits

/-! ## Expressions -/

theorem balanced_texts {b : Backend} {es : List Expr}
    (h : ∀ e ∈ es, Balanced (b.textOf e)) :
    Balanced (commaList (Expr.texts b.argumentText es)) := by
  refine .commaList fun s hs => ?_
  rw [Expr.texts_eq_map] at hs
  obtain ⟨e, he, rfl⟩ := List.mem_map.1 hs
  exact h e he

theorem Legible.balanced {b : Backend} {n : Nat} {e : Expr} (h : Legible n e) :
    Balanced (b.textOf e) := by
  induction h with
  | column hc => exact balanced_column hc
  | argument i => exact balanced_argument b i
  | truth x =>
      cases x with
      | true => exact balanced_plain (s := "TRUE") (by decide)
      | false => exact balanced_plain (s := "FALSE") (by decide)
  | natural _ => exact balanced_natural _
  | call hf _ _ ih =>
      rw [Backend.textOf, text_call]
      exact (balanced_plain hf).append (balanced_texts ih).paren
  | @compare _ op _ _ _ _ _ ihl ihr =>
      have hop : Balanced (" " ++ (op.text ++ " ")) := by
        cases op <;> exact .of_flat (by decide)
      rw [Backend.textOf, text_compare]
      exact ihl.append (hop.append ihr)
  | like _ _ _ ihl ihr =>
      rw [Backend.textOf, text_like]
      exact ihl.append ((Balanced.of_flat (by decide)).append ihr)
  | @isNull _ _ negated _ _ ih =>
      rw [Backend.textOf, text_isNull]
      refine ih.append ?_
      cases negated <;> exact .of_flat (by decide)
  | oneOf _ _ _ ih ihs =>
      have hin : " IN (" = " IN " ++ "(" := rfl
      rw [Backend.textOf, text_oneOf, hin, String.append_assoc]
      exact ih.append ((Balanced.of_flat (by decide)).append (balanced_texts ihs).paren)
  | not _ _ ih =>
      have hnot : "NOT (" = "NOT " ++ "(" := rfl
      rw [Backend.textOf, text_not, hnot, String.append_assoc]
      exact (Balanced.of_flat (by decide)).append ih.paren
  | @junction _ op _ _ _ _ _ ihl ihr =>
      have hsep : ") " ++ (op.text ++ " (") =
          ")" ++ ((" " ++ (op.text ++ " ")) ++ "(") := by
        cases op <;> rfl
      have hop : Balanced (" " ++ (op.text ++ " ")) := by
        cases op <;> exact .of_flat (by decide)
      have hall := ihl.paren.append (hop.append ihr.paren)
      rw [Backend.textOf, text_junction, hsep]
      simp only [String.append_assoc] at hall ⊢
      exact hall

end RequestLog.Sql
