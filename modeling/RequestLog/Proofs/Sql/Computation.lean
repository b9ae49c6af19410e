import RequestLog.Proofs.Sql.Numeral

/-!
# Computations read back

Counts, sums and products, conversions to a double, and cases. With these the text of a price
can be read as the expression that it was made from, but for its numbers, each of
which has become the operand that its digits are read as.

The word that opens the first branch of a case is part of the token that opens the
case, so the branches are read from behind that word on (`readsAs_branches`).
-/

namespace RequestLog.Sql

variable {b : Backend} {n : Nat} {e e' l l' r r' : Expr}

theorem ReadsAs.literal {x : Float} (h : x.isFinite = true) :
    ReadsAs b n (.number x) (literal x) :=
  ⟨_, .primary (.operand _), yields_literal b h⟩

/-! ## Counts -/

theorem readsAs_countAll : ReadsAs b n .countAll .countAll := by
  refine ⟨_, .primary (.operand _), ?_⟩
  have htext : lexemes (b.textOf .countAll) =
      [.name "count", .mark '(', .operator "*", .mark ')'] := by cases b <;> decide
  refine ⟨htext ▸ begins_cons (by simp) (by simp), ?_⟩
  rintro n m rest rfl -
  rw [htext]
  simp only [List.cons_append, List.nil_append]
  rw [tokensFrom]
  rfl

theorem ReadsAs.countDistinct (h : ReadsAs b 0 e e') :
    ReadsAs b n (.countDistinct e) (.countDistinct e') := by
  obtain ⟨ts, hreads, hyields⟩ := h
  refine ⟨_, .primary (.distinct hreads), ?_⟩
  have hopen : lexemes "count(" = [.name "count", .mark '('] := by decide
  have hdistinct : lexemes "DISTINCT " = [.keyword .distinct] := by decide
  rw [Backend.textOf, text_countDistinct, lexemes_after (by decide), hopen,
    lexemes_after (by decide), hdistinct, lexemes_before (by decide), lexemes_close]
  have hall := hyields.closed.before
    [.name "count", .mark '(', .keyword .distinct] [.openDistinct]
    (fun _ => begins_cons (by simp) (by simp)) fun _ _ _ => by
      simp only [List.cons_append, List.nil_append]
      rw [tokensFrom]
  simp only [List.cons_append, List.nil_append] at hall ⊢
  exact hall

/-! ## Arithmetic -/

theorem tokensFrom_arithmetic {next : Nat} {op : Arithmetic} {ls : List Lexeme} :
    tokensFrom next (.operator op.text :: ls) =
      .binary (.arithmetic op) :: tokensFrom next ls := by
  cases op <;> (rw [Arithmetic.text, tokensFrom] <;> first | rfl | simp)

theorem ReadsAs.arithmetic {op : Arithmetic} (hn : n ≤ (Binary.arithmetic op).level)
    (hl : ReadsAs b (Binary.arithmetic op).level l l')
    (hr : ReadsAs b ((Binary.arithmetic op).level + 1) r r') :
    ReadsAs b n (.arithmetic op l r) (.arithmetic op l' r') := by
  obtain ⟨ts, hreads, hyields⟩ := hl
  obtain ⟨us, hreads', hyields'⟩ := hr
  refine ⟨_, @Reads.binary n (.arithmetic op) _ _ _ _ hn hreads hreads', ?_⟩
  have hsep : lexemes (" " ++ (op.text ++ " ")) = [.operator op.text] := by
    cases op <;> decide
  rw [Backend.textOf, text_arithmetic]
  exact hyields.binary hyields' (by cases op <;> decide) (by cases op <;> decide)
    hsep (by simp) fun _ _ => tokensFrom_arithmetic

/-! ## Conversions -/

theorem ReadsAs.cast {type : String} (htype : plain type = true)
    (hk : Keyword.ofText? type = none) (h : ReadsAs b 0 e e') :
    ReadsAs b n (.cast e type) (.cast e' type) := by
  obtain ⟨ts, hreads, hyields⟩ := h
  refine ⟨_, .primary (.cast hreads), ?_⟩
  have hopen : lexemes "CAST(" = [.keyword .cast, .mark '('] := by decide
  have has : lexemes " AS " = [.keyword .as] := by decide
  rw [Backend.textOf, text_cast, lexemes_after (by decide), hopen,
    lexemes_between (by decide) (by decide), has, lexemes_before (by decide),
    lexemes_plain htype hk, lexemes_close]
  have hend := hyields.behind [.keyword .as, .name type, .mark ')'] [.closeCast type]
    (fun _ => follows_cons (by simp)) fun _ _ => by
      rw [List.cons_append, List.cons_append, List.cons_append, tokensFrom]
      rfl
  have hall := hend.before [.keyword .cast, .mark '('] [.openCast]
    (fun _ => begins_cons (by simp) (by simp)) fun _ _ _ => by
      rw [List.cons_append, List.cons_append, tokensFrom]
      rfl
  simp only [List.append_assoc, List.cons_append, List.nil_append] at hall ⊢
  exact hall

theorem ReadsAs.typed (h : ReadsAs b 0 e e') :
    ReadsAs b n (.typed e "DOUBLE PRECISION") (.typed e' "DOUBLE PRECISION") := by
  obtain ⟨ts, hreads, hyields⟩ := h
  refine ⟨_, .primary (.typed (.paren hreads)), ?_⟩
  have htype : lexemes (")::" ++ "DOUBLE PRECISION") =
      [.mark ')', .operator "::", .name "DOUBLE", .name "PRECISION"] := by decide
  rw [Backend.textOf, text_typed, lexemes_after (by decide), lexemes_open,
    lexemes_before (by decide), htype]
  have hend := hyields.behind
    [.mark ')', .operator "::", .name "DOUBLE", .name "PRECISION"]
    [.close, .typed "DOUBLE PRECISION"] (fun _ => follows_cons (by decide)) fun _ _ => rfl
  have hall := hend.before [.mark '('] [.openParen]
    (fun _ => begins_cons (by simp) (by simp)) fun _ _ _ => rfl
  simp only [List.append_assoc, List.cons_append, List.nil_append] at hall ⊢
  exact hall

theorem ReadsAs.toDouble (h : ReadsAs b 0 e e') :
    ReadsAs b n (b.toDouble e) (b.toDouble e') := by
  cases b with
  | sqlite => exact h.cast (by decide) (by decide)
  | postgres => exact h.typed
  | duckdb => exact h.cast (by decide) (by decide)
  | clickhouse => exact .call (by decide) (by decide) (.cons h .nil)

/-! ## Cases -/

/-- Branches whose texts are read as other branches, each as one of them. -/
inductive ReadsAsBranches (b : Backend) :
    List Expr → List Expr → List Expr → List Expr → Prop
  | one {c c' r r' : Expr} : ReadsAs b 0 c c' → ReadsAs b 0 r r' →
      ReadsAsBranches b [c] [r] [c'] [r']
  | more {c c' r r' : Expr} {cs cs' rs rs' : List Expr} :
      ReadsAs b 0 c c' → ReadsAs b 0 r r' → ReadsAsBranches b cs rs cs' rs' →
      ReadsAsBranches b (c :: cs) (r :: rs) (c' :: cs') (r' :: rs')

theorem lexemes_branch (c r : String) :
    lexemes (" WHEN " ++ (c ++ (" THEN " ++ r))) =
      .keyword .when :: (lexemes c ++ [.keyword .then] ++ lexemes r) := by
  have hwhen : lexemes " WHEN " = [.keyword .when] := by decide
  have hthen : lexemes " THEN " = [.keyword .then] := by decide
  rw [lexemes_after (by decide), hwhen, lexemes_between (by decide) (by decide), hthen]
  rfl

theorem branches_cons {c r : String} {cs rs : List String} :
    String.join (Expr.branches (c :: cs) (r :: rs)) =
      " WHEN " ++ (c ++ (" THEN " ++ r)) ++ String.join (Expr.branches cs rs) := by
  rw [Expr.branches, String.join_cons]
  simp [toString, String.append_assoc]

theorem beginsAlone_append {s t : String} (h : beginsAlone s = true) :
    beginsAlone (s ++ t) = true := by
  rw [beginsAlone] at h ⊢
  rw [String.toList_append, List.head?_append]
  cases hs : s.toList.head? with
  | none => rw [hs] at h; cases h
  | some c => rw [hs] at h; exact h

theorem tokensFrom_keyword {next : Nat} {k : Keyword} {ls : List Lexeme}
    (hk : k = .when ∨ k = .then ∨ k = .else ∨ k = .end) :
    tokensFrom next (.keyword k :: ls) = keywordToken k :: tokensFrom next ls := by
  rcases hk with rfl | rfl | rfl | rfl <;> rw [tokensFrom] <;> simp

/-- One branch behind the word that opens it. -/
theorem yields_branch {ls ms : List Lexeme} {is js : List Nat} {ts us : List Token}
    (hc : Yields b ls is ts) (hr : Yields b ms js us) :
    Yields b (ls ++ [.keyword .then] ++ ms) (is ++ js) (ts ++ .then :: us) := by
  rw [List.append_cons ts]
  exact hc.between [.keyword .then] [.then] hr (fun _ => follows_cons (by simp))
    fun _ _ => tokensFrom_keyword (by simp)

namespace ReadsAsBranches

variable {cs cs' rs rs' : List Expr}

theorem beginsAlone (h : ReadsAsBranches b cs rs cs' rs') :
    Sql.beginsAlone (String.join (Expr.branches (Expr.texts b.argumentText cs)
      (Expr.texts b.argumentText rs))) = true := by
  cases h with
  | one | more =>
      refine (congrArg Sql.beginsAlone branches_cons).trans ?_
      exact beginsAlone_append (beginsAlone_append (by decide))

/-- The tokens of the branches behind the word that opens the first of them. -/
theorem readsBranches (h : ReadsAsBranches b cs rs cs' rs') :
    ∃ ls ts,
      lexemes (String.join (Expr.branches (Expr.texts b.argumentText cs)
        (Expr.texts b.argumentText rs))) = .keyword .when :: ls ∧
      ReadsBranches ts cs' rs' ∧
      Yields b ls (interleave (Expr.argumentLists cs) (Expr.argumentLists rs)) ts := by
  induction h with
  | @one c _ r _ hc hr =>
      obtain ⟨ts, hreads, hyields⟩ := hc
      obtain ⟨us, hreads', hyields'⟩ := hr
      have hlexemes := lexemes_branch (b.textOf c) (b.textOf r)
      have hall := yields_branch hyields hyields'
      refine ⟨lexemes (b.textOf c) ++ [.keyword .then] ++ lexemes (b.textOf r), _, ?_,
        .one hreads hreads', ?_⟩
      · exact (congrArg lexemes (branches_cons.trans String.append_empty)).trans hlexemes
      · simpa [Expr.argumentLists, interleave] using hall
  | @more c _ r _ _ _ _ _ hc hr hrest ih =>
      obtain ⟨ts, hreads, hyields⟩ := hc
      obtain ⟨us, hreads', hyields'⟩ := hr
      obtain ⟨ls, vs, hlexemes, hbranches, hmore⟩ := ih
      have hfirst := lexemes_branch (b.textOf c) (b.textOf r)
      have hall := (yields_branch hyields hyields').between [.keyword .when] [.when] hmore
        (fun _ => follows_cons (by simp)) fun _ _ => tokensFrom_keyword (by simp)
      refine ⟨lexemes (b.textOf c) ++ [.keyword .then] ++ lexemes (b.textOf r) ++
        .keyword .when :: ls, _, ?_, .more hreads hreads' hbranches, ?_⟩
      · refine (congrArg lexemes branches_cons).trans ?_
        rw [lexemes_before hrest.beginsAlone, hlexemes]
        exact congrArg (· ++ _) hfirst
      · simpa [Expr.argumentLists, interleave] using hall

end ReadsAsBranches

theorem ReadsAs.caseWhen {cs cs' rs rs' : List Expr}
    (h : ReadsAsBranches b cs rs cs' rs') (he : ReadsAs b 0 e e') :
    ReadsAs b n (.caseWhen cs rs e) (.caseWhen cs' rs' e') := by
  obtain ⟨ls, ts, hlexemes, hbranches, hyields⟩ := h.readsBranches
  obtain ⟨us, hreads, hyields'⟩ := he
  refine ⟨_, .primary (.caseWhen hbranches hreads), ?_⟩
  have hcase : lexemes "CASE" = [.keyword .case] := by decide
  have helse : lexemes " ELSE " = [.keyword .else] := by decide
  have hend : lexemes " END" = [.keyword .end] := by decide
  rw [Backend.textOf, text_caseWhen, lexemes_before (beginsAlone_append h.beginsAlone),
    hcase, lexemes_between (by decide) (by decide), hlexemes, helse,
    lexemes_before (by decide), hend]
  have hlast := hyields'.behind [.keyword .end] [.end] (fun _ => follows_cons (by simp))
    fun _ _ => tokensFrom_keyword (by simp)
  have hall := hyields.between [.keyword .else] [.else] hlast
    (fun _ => follows_cons (by simp)) fun _ _ => tokensFrom_keyword (by simp)
  have hstart := hall.before [.keyword .case, .keyword .when] [.caseWhen]
    (fun _ => begins_cons (by simp) (by simp)) fun _ _ _ => by
      rw [List.cons_append, List.cons_append, tokensFrom]
      rfl
  simp only [List.append_assoc, List.cons_append, List.nil_append] at hstart ⊢
  exact hstart

end RequestLog.Sql
