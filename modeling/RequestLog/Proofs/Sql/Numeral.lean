import RequestLog.Proofs.Decimal.Digits
import RequestLog.Proofs.Sql.Legible

/-!
# Doubles as literals

The text of a finite double is one lexeme, or two when it has a sign, and it is read
as one operand (`literal`). What that operand is depends on the digits alone; a text
without a point becomes an integer.
-/

namespace RequestLog.Sql

open Decimal

/-- The operand that the text of a double is read as. -/
def literal (x : Float) : Expr :=
  match (sqlText x).toList with
  | '-' :: cs => numberExpr true (String.ofList cs)
  | cs => numberExpr false (String.ofList cs)

theorem charClass_of_numeralChar {c : Char} (h : numeralChar c = true) :
    charClass c = .word := by
  rw [numeralChar, Bool.or_eq_true, beq_iff_eq] at h
  rcases h with h | rfl
  · exact charClass_of_isDigit h
  · decide

theorem lexemes_numeral {cs : List Char} (h : Numeral cs) :
    lexemes (String.ofList cs) = [.number (String.ofList cs)] := by
  obtain ⟨hhead, hall⟩ := h
  cases cs with
  | nil => cases hhead
  | cons c rest =>
      have hc : c.isDigit = true := hhead
      have hword : ∀ d ∈ c :: rest, charClass d = .word :=
        fun d hd => charClass_of_numeralChar (hall d hd)
      rw [lexemes_word (List.cons_ne_nil _ _) hword, lexeme]
      · rw [hword c (List.mem_cons_self ..)]
        simp only [wordLexeme_digit hc]
      · rintro heq
        cases heq
        exact absurd hc (by decide)

/-- A minus sign is a lexeme of its own in front of a number. -/
theorem lexemes_negative {cs : List Char} (h : Numeral cs) :
    lexemes (String.ofList ('-' :: cs)) =
      [.operator "-", .number (String.ofList cs)] := by
  have hsplit : String.ofList ('-' :: cs) = "-" ++ String.ofList cs := by
    rw [← List.singleton_append, String.ofList_append]
  have hminus : lexemes "-" = [.operator "-"] := by decide
  have hseam : ∀ c, "-".toList.getLast? = some c →
      joins c (String.ofList cs).toList = false := by
    intro c hc
    cases hc
    rw [String.toList_ofList]
    cases cs with
    | nil => rfl
    | cons d rest =>
        have hd := charClass_of_numeralChar (h.2 d (List.mem_cons_self ..))
        rw [joins, List.head?_cons, Option.any_some, hd]
        decide
  rw [hsplit, lexemes_append hseam, hminus, lexemes_numeral h]
  rfl

theorem literal_positive {x : Float} {cs : List Char} (h : Numeral cs)
    (htext : sqlText x = String.ofList cs) :
    literal x = numberExpr false (String.ofList cs) := by
  obtain ⟨hhead, -⟩ := h
  rw [literal, htext, String.toList_ofList]
  split
  · exact absurd hhead Bool.false_ne_true
  · rfl

theorem literal_negative {x : Float} {cs : List Char}
    (htext : sqlText x = String.ofList ('-' :: cs)) :
    literal x = numberExpr true (String.ofList cs) := by
  rw [literal, htext, String.toList_ofList]
  rfl

theorem yields_literal (b : Backend) {x : Float} (h : x.isFinite = true) :
    Yields b (lexemes (sqlText x)) [] [.operand (literal x)] := by
  obtain ⟨cs, hcs, htext | htext⟩ := sqlText_of_isFinite h
  · rw [literal_positive hcs htext, htext, lexemes_numeral hcs]
    exact .single _ _ (by simp) (by simp) fun _ _ _ => by rw [tokensFrom]
  · rw [literal_negative htext, htext, lexemes_negative hcs]
    refine ⟨begins_cons (by simp) (by simp), ?_⟩
    rintro n m rest rfl -
    rw [List.cons_append, List.cons_append, tokensFrom]
    rfl

end RequestLog.Sql
