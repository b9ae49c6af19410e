import RequestLog.Proofs.Sql.Lexeme

/-!
# Names

The names of tables, columns and functions are made of letters, digits and
underscores and do not begin with a digit. Such a name is one lexeme, and it is read
as a name unless it is a keyword. No keyword has a point in it, so a column with
its table in front is always read as that column.
-/

namespace RequestLog.Sql

def nameChar (c : Char) : Bool := c.isAlphanum || c == '_'

/-- Whether a text can be the name of a table, a column or a function. -/
def plain (s : String) : Bool :=
  s.toList.head?.any (!·.isDigit) && s.toList.all nameChar

def ColumnRef.plain (c : ColumnRef) : Bool := Sql.plain c.table && Sql.plain c.column

theorem nameChar_of_mem {s : String} {c : Char} (h : plain s = true)
    (hc : c ∈ s.toList) : nameChar c = true := by
  rw [plain, Bool.and_eq_true] at h
  exact List.all_eq_true.1 h.2 c hc

theorem charClass_of_nameChar {c : Char} (h : nameChar c = true) :
    charClass c = .word := by
  have hblank : ¬(c = ' ' || c = '\n' || c = '\t') = true := by
    rintro hc
    simp only [Bool.or_eq_true, decide_eq_true_eq] at hc
    rcases hc with (rfl | rfl) | rfl <;> exact absurd h (by decide)
  rw [nameChar, Bool.or_eq_true, beq_iff_eq] at h
  rw [charClass, if_neg hblank, if_pos]
  rcases h with h | rfl
  · rw [h]; rfl
  · rfl

/-- A plain name is neither a number nor an argument. -/
theorem head_of_plain {s : String} (h : plain s = true) :
    ∃ c cs, s.toList = c :: cs ∧ c.isDigit = false ∧ c ≠ '$' := by
  have hchars := fun c => nameChar_of_mem (c := c) h
  rw [plain, Bool.and_eq_true] at h
  cases hs : s.toList with
  | nil => rw [hs] at h; exact absurd h.1 (by decide)
  | cons c cs =>
      rw [hs] at h hchars
      refine ⟨c, cs, rfl, by simpa using h.1, ?_⟩
      rintro rfl
      exact absurd (hchars '$' (List.mem_cons_self ..)) (by decide)

theorem wordLexeme_name {c : Char} {cs : List Char} (hdigit : c.isDigit = false)
    (hdollar : c ≠ '$') (hk : Keyword.ofText? (String.ofList (c :: cs)) = none) :
    wordLexeme (c :: cs) = .name (String.ofList (c :: cs)) := by
  rw [wordLexeme]
  · rw [if_neg (by rw [hdigit]; decide), hk]
  · rintro rfl
    exact hdollar rfl

/-- A run of word characters that is no keyword, when it begins as a name does. -/
theorem lexemes_name {c : Char} {cs : List Char} (hdigit : c.isDigit = false)
    (hdollar : c ≠ '$') (hk : Keyword.ofText? (String.ofList (c :: cs)) = none)
    (hword : ∀ d ∈ c :: cs, charClass d = .word) :
    lexemes (String.ofList (c :: cs)) = [.name (String.ofList (c :: cs))] := by
  rw [lexemes_word (List.cons_ne_nil _ _) hword, lexeme]
  · rw [hword c (List.mem_cons_self ..)]
    simp only [wordLexeme_name hdigit hdollar hk]
  · rintro h
    cases h
    exact absurd (hword '?' (List.mem_cons_self ..)) (by decide)

theorem lexemes_plain {s : String} (h : plain s = true)
    (hk : Keyword.ofText? s = none) : lexemes s = [.name s] := by
  obtain ⟨c, cs, hs, hdigit, hdollar⟩ := head_of_plain h
  have htext : s = String.ofList (c :: cs) := by rw [← hs, String.ofList_toList]
  rw [htext] at hk ⊢
  refine lexemes_name hdigit hdollar hk fun d hd => ?_
  exact charClass_of_nameChar (nameChar_of_mem h (by rw [hs]; exact hd))

theorem ofText?_of_point {s : String} (h : '.' ∈ s.toList) :
    Keyword.ofText? s = none := by
  have hall : ∀ p ∈ Keyword.all, '.' ∉ p.1.toList := by decide
  rw [Keyword.ofText?, List.lookup_eq_none_iff]
  intro p hp
  rw [bne_iff_ne]
  rintro rfl
  exact hall p hp h

theorem toList_text (c : ColumnRef) :
    c.text.toList = c.table.toList ++ '.' :: c.column.toList := by
  have htext : c.text = c.table ++ ("." ++ c.column) := by
    rw [ColumnRef.text, ← String.append_assoc]
    rfl
  simp [htext]

theorem lexemes_column {c : ColumnRef} (h : c.plain = true) :
    lexemes c.text = [.name c.text] := by
  rw [ColumnRef.plain, Bool.and_eq_true] at h
  obtain ⟨d, ds, hs, hdigit, hdollar⟩ := head_of_plain h.1
  have htext : c.text = String.ofList (d :: (ds ++ '.' :: c.column.toList)) := by
    rw [← List.cons_append, ← hs, ← toList_text, String.ofList_toList]
  have hk : Keyword.ofText? c.text = none :=
    ofText?_of_point (by rw [toList_text]; simp)
  rw [htext] at hk ⊢
  refine lexemes_name hdigit hdollar hk fun x hx => ?_
  rw [← List.cons_append, ← hs, List.mem_append, List.mem_cons] at hx
  rcases hx with hx | rfl | hx
  · exact charClass_of_nameChar (nameChar_of_mem h.1 hx)
  · decide
  · exact charClass_of_nameChar (nameChar_of_mem h.2 hx)

theorem nameExpr_column {c : ColumnRef} (h : c.plain = true) :
    nameExpr c.text = .column c := by
  rw [ColumnRef.plain, Bool.and_eq_true] at h
  have hpoint : ∀ x ∈ c.table.toList, decide (x ≠ '.') = true := by
    intro x hx
    rw [decide_eq_true_eq]
    rintro rfl
    exact absurd (nameChar_of_mem h.1 hx) (by decide)
  have htake : c.text.toList.takeWhile (· ≠ '.') = c.table.toList := by
    rw [toList_text, List.takeWhile_append_of_pos hpoint]
    simp
  have hdrop : c.text.toList.dropWhile (· ≠ '.') = '.' :: c.column.toList := by
    rw [toList_text, List.dropWhile_append_of_pos hpoint]
    simp
  rw [nameExpr, htake, hdrop]
  simp only [String.ofList_toList]

end RequestLog.Sql
