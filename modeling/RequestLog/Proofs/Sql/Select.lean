import Mathlib.Data.List.TakeDrop
import Mathlib.Data.List.TakeWhile
import RequestLog.Proofs.Sql.Computation
import RequestLog.Sql.Select

/-!
# Queries read back

A query is cut at the words between its parts, so it is read as it was meant if no
part holds the word behind it. An expression holds neither of them: the reader of
expressions cannot go on at such a word, and it goes to the end of whatever the
grammar derives (`Reads.not_mem`). The names in a relation are plain, and what joins
them is fixed.

The arguments are counted through the whole text. Those of the item come first, so
the condition is read with the next free number behind them.
-/

namespace RequestLog.Sql

/-! ## Words between the parts -/

/-- A word that stands between the parts of a query. -/
inductive Separates : Token → Prop
  | from : Separates .from
  | where : Separates .where

theorem Reader.step_separator (r : Reader) {t : Token} (ht : Separates t) :
    r.step t = none := by
  obtain ⟨items, stack, due⟩ := r
  cases due with
  | operand => cases ht <;> rfl
  | comma => cases ht <;> rfl
  | operator e =>
      have hend : ∀ (stack : List Frame) (e' : Expr),
          (Reader.mk items stack (.operator e)).endStep e' t = none := by
        intro stack e'
        cases ht <;> (cases stack with
          | nil => rfl
          | cons f stack => cases f <;> rfl)
      cases ht <;> exact hend (close 0 stack e).1 (close 0 stack e).2

theorem Reader.not_mem_of_run {r r' : Reader} {ts : List Token} (h : r.run ts = some r')
    {t : Token} (ht : Separates t) : t ∉ ts := by
  induction ts generalizing r with
  | nil => exact List.not_mem_nil
  | cons u ts ih =>
      cases hu : r.step u with
      | none =>
          rw [run, List.foldlM_cons, hu] at h
          cases h
      | some r₁ =>
          rw [run_cons hu] at h
          intro hmem
          rcases List.mem_cons.1 hmem with rfl | hmem
          · rw [step_separator r ht] at hu
            cases hu
          · exact ih h hmem

theorem Reads.not_mem {ts : List Token} {e : Expr} (h : Reads 0 ts e) {t : Token}
    (ht : Separates t) : t ∉ ts := by
  obtain ⟨_, _, hrun, -⟩ := h.run [] [] (fun _ _ _ => rfl)
  exact Reader.not_mem_of_run hrun ht

theorem cutAt_append {isIt : Token → Bool} {before after : List Token} {t : Token}
    (hbefore : ∀ u ∈ before, isIt u = false) (ht : isIt t = true) :
    cutAt isIt (before ++ t :: after) = (before, some after) := by
  have hspan : (before ++ t :: after).span (fun u => !isIt u) = (before, t :: after) := by
    have hpass : ∀ u ∈ before, (!isIt u) = true := fun u hu => by rw [hbefore u hu]; rfl
    rw [List.span_eq_takeWhile_dropWhile, List.takeWhile_append_of_pos hpass,
      List.dropWhile_append_of_pos hpass]
    simp [ht]
  rw [cutAt, hspan]

theorem isFrom_iff {t : Token} : t.isFrom = true ↔ t = .from := by
  cases t <;> simp [Token.isFrom]

theorem isWhere_iff {t : Token} : t.isWhere = true ↔ t = .where := by
  cases t <;> simp [Token.isWhere]

/-! ## Relations -/

def Join.tokens (j : Join) : List Token :=
  [.join j.kind, .operand (.bare j.table), .on, .operand (.column j.left),
   .binary (.compare .eq), .operand (.column j.right)]

def Relation.tokens (r : Relation) : List Token :=
  .operand (.bare r.table) :: r.joins.flatMap Join.tokens

/-- A name that is read as the name of a table. -/
def tableName (s : String) : Bool := plain s && (Keyword.ofText? s).isNone

def Join.plain (j : Join) : Bool := tableName j.table && j.left.plain && j.right.plain

def Relation.plain (r : Relation) : Bool := tableName r.table && r.joins.all Join.plain

theorem readRelation_tokens (r : Relation) : readRelation r.tokens = some r := by
  have hjoins : ∀ joins : List Join, readJoins (joins.flatMap Join.tokens) = some joins := by
    intro joins
    induction joins with
    | nil => rfl
    | cons j rest ih =>
        rw [List.flatMap_cons]
        change (readJoins (rest.flatMap Join.tokens)).map _ = _
        rw [ih]
        rfl
  obtain ⟨table, joins⟩ := r
  change (readJoins (joins.flatMap Join.tokens)).map _ = _
  rw [hjoins]
  rfl

theorem Relation.where_not_mem (r : Relation) : .where ∉ r.tokens := by
  simp [Relation.tokens, Join.tokens]

theorem nameExpr_plain {s : String} (h : plain s = true) : nameExpr s = .bare s := by
  have hpoint : ∀ x ∈ s.toList, decide (x ≠ '.') = true := by
    intro x hx
    rw [decide_eq_true_eq]
    rintro rfl
    exact absurd (nameChar_of_mem h hx) (by decide)
  have hdrop : s.toList.dropWhile (· ≠ '.') = [] := by
    rw [List.dropWhile_eq_nil_iff]
    exact hpoint
  rw [nameExpr, hdrop]

theorem yields_tableName (b : Backend) {s : String} (h : tableName s = true) :
    Yields b (lexemes s) [] [.operand (.bare s)] := by
  rw [tableName, Bool.and_eq_true, Option.isNone_iff_eq_none] at h
  rw [lexemes_plain h.1 h.2, ← nameExpr_plain h.1]
  exact .single (.name s) _ (by simp) (by simp) fun _ _ => tokensFrom_name

def JoinKind.keyword : JoinKind → Keyword
  | .inner => .inner
  | .left => .left

theorem Join.text_eq (j : Join) :
    j.text = (" " ++ (j.kind.text ++ " ")) ++ (j.table ++ (" ON " ++
      (j.left.text ++ (" = " ++ j.right.text)))) := by
  simp [Join.text, toString, String.append_assoc]

/-- A word that begins a part of a query, or the condition of a join. -/
theorem tokensFrom_part {next : Nat} {k : Keyword} {ls : List Lexeme}
    (hk : k = .select ∨ k = .where ∨ k = .on) :
    tokensFrom next (.keyword k :: ls) = keywordToken k :: tokensFrom next ls := by
  rcases hk with rfl | rfl | rfl <;> rw [tokensFrom] <;> simp

theorem Yields.join {b : Backend} {s : String} {ts : List Token}
    (hs : Yields b (lexemes s) [] ts) {j : Join} (hj : j.plain = true) :
    Yields b (lexemes (s ++ j.text)) [] (ts ++ j.tokens) := by
  obtain ⟨kind, table, left, right⟩ := j
  rw [Join.plain, Bool.and_eq_true, Bool.and_eq_true] at hj
  obtain ⟨⟨htable, hleft⟩, hright⟩ := hj
  have hkind : lexemes (" " ++ (kind.text ++ " ")) =
      [.keyword kind.keyword, .keyword .join] := by cases kind <;> decide
  have hbegin : beginsAlone (" " ++ (kind.text ++ " ")) = true := by cases kind <;> decide
  have hend : endsAlone (" " ++ (kind.text ++ " ")) = true := by cases kind <;> decide
  have hon : lexemes " ON " = [.keyword .on] := by decide
  have heq : lexemes " = " = [.operator "="] := by decide
  rw [Join.text_eq, lexemes_between hbegin hend, hkind,
    lexemes_between (by decide) (by decide), hon, lexemes_between (by decide) (by decide),
    heq]
  have htables := hs.between [.keyword kind.keyword, .keyword .join] [.join kind]
    (yields_tableName b htable) (fun _ => follows_cons (by simp))
    fun _ _ => by
      rw [List.cons_append, List.cons_append]
      cases kind <;> (rw [JoinKind.keyword, tokensFrom]; rfl)
  have hlefts := htables.between [.keyword .on] [.on] (yields_column b hleft)
    (fun _ => follows_cons (by simp))
    fun _ _ => tokensFrom_part (.inr (.inr rfl))
  have hall := hlefts.between [.operator "="] [.binary (.compare .eq)]
    (yields_column b hright) (fun _ => follows_cons (by simp))
    fun _ _ => @tokensFrom_comparison _ .eq _
  simp only [List.append_assoc, List.cons_append, List.nil_append, Join.tokens] at hall ⊢
  exact hall

theorem yields_relation (b : Backend) {r : Relation} (h : r.plain = true) :
    Yields b (lexemes r.text) [] r.tokens := by
  rw [Relation.plain, Bool.and_eq_true, List.all_eq_true] at h
  suffices hjoins : ∀ (joins : List Join) (s : String) (ts : List Token),
      (∀ j ∈ joins, j.plain = true) → Yields b (lexemes s) [] ts →
      Yields b (lexemes (s ++ String.join (joins.map Join.text))) []
        (ts ++ joins.flatMap Join.tokens) from
    hjoins r.joins r.table _ h.2 (yields_tableName b h.1)
  intro joins
  induction joins with
  | nil => intro s ts _ hs; simpa using hs
  | cons j rest ih =>
      intro s ts hplain hs
      obtain ⟨hj, hrest⟩ := List.forall_mem_cons.1 hplain
      have hall := ih _ _ hrest (hs.join hj)
      rw [List.map_cons, String.join_cons, List.flatMap_cons, ← String.append_assoc,
        ← List.append_assoc]
      exact hall

/-! ## Queries of one item -/

theorem tokensFrom_named {next : Nat} {name : String} {ls : List Lexeme} :
    tokensFrom next (.keyword .as :: .name name :: .keyword .from :: ls) =
      .named name :: .from :: tokensFrom next ls := by
  rw [tokensFrom]
  · rw [tokensFrom] <;> first | rfl | simp
  · simp

/-- The text of a query of one item is cut at the words between its parts. -/
theorem tokens_select {b : Backend} {e c : Expr} {name : String} {r : Relation}
    {its cts : List Token} {k count : Nat}
    (he : Yields b (lexemes (b.textOf e)) (List.range' 1 k) its)
    (hname : tableName name = true) (hr : r.plain = true)
    (hc : Yields b (lexemes (b.textOf c)) (List.range' (k + 1) count) cts) :
    tokens ("SELECT " ++ (b.textOf e ++ " AS " ++ name) ++ " FROM " ++ r.text ++
        " WHERE " ++ b.textOf c) =
      .select :: (its ++ .named name :: .from :: (r.tokens ++ .where :: cts)) := by
  rw [tableName, Bool.and_eq_true, Option.isNone_iff_eq_none] at hname
  have hselect : lexemes "SELECT " = [.keyword .select] := by decide
  have has : lexemes " AS " = [.keyword .as] := by decide
  have hfrom : lexemes " FROM " = [.keyword .from] := by decide
  have hwhere : lexemes " WHERE " = [.keyword .where] := by decide
  obtain ⟨m, hm⟩ := counts_range b 1 (k + count)
  rw [← List.range'_append_1, Nat.add_comm 1 k] at hm
  have hrelation := he.between [.keyword .as, .name name, .keyword .from]
    [.named name, .from] (yields_relation b hr) (fun _ => follows_cons (by simp))
    fun _ _ => tokensFrom_named
  have hall := hrelation.between [.keyword .where] [.where] hc
    (fun _ => follows_cons (by simp)) fun _ _ => tokensFrom_part (.inr (.inl rfl))
  have htokens := hall.tokens 1 m [] (by simpa using hm) (by rintro l ⟨⟩)
  rw [List.append_nil, tokensFrom, List.append_nil] at htokens
  simp only [String.append_assoc]
  rw [tokens, lexemes_after (by decide), hselect, lexemes_between (by decide) (by decide),
    has, lexemes_between (by decide) (by decide), lexemes_plain hname.1 hname.2, hfrom,
    lexemes_between (by decide) (by decide), hwhere, List.singleton_append,
    tokensFrom_part (.inl rfl)]
  simp only [List.append_assoc, List.cons_append, List.nil_append] at htokens ⊢
  rw [htokens]
  rfl

theorem readItems_named {ts : List Token} {e : Expr} (h : Reads 0 ts e) (name : String) :
    readItems (ts ++ [.named name]) = some [(e, some name)] := by
  obtain ⟨stack, e', hrun, hclose⟩ := h.run [] [] (fun _ _ _ => rfl)
  have hc : Reader.close 0 stack e' = ([], e) := hclose 0 (Nat.le_refl 0)
  have hnamed : (Reader.mk [] stack (.operator e')).step (.named name) =
      some ⟨[(e, some name)], [], .comma⟩ := by
    rw [Reader.step_operator]
    simp only [Reader.operatorStep, hc]
    rfl
  have hall := (Reader.run_append hrun).trans (Reader.run_single.trans hnamed)
  exact (congrArg (Option.bind · Reader.items?) hall).trans rfl

/-- A query of one item is read as it was meant. -/
theorem ofText?_select {b : Backend} {e e' : Expr} {name : String} {r : Relation}
    {c : Expr} {k count : Nat} (he : ReadsAs b 0 e e') (hname : tableName name = true)
    (hr : r.plain = true) (hc : ReadsBack b 0 c)
    (hargs : e.arguments = List.range' 1 k)
    (hcargs : c.arguments = List.range' (k + 1) count) :
    Select.ofText? ("SELECT " ++ (b.textOf e ++ " AS " ++ name) ++ " FROM " ++ r.text ++
      " WHERE " ++ b.textOf c) = some ⟨[(e', name)], r, c⟩ := by
  obtain ⟨its, hitem, hits⟩ := he
  obtain ⟨cts, hcondition, hcts⟩ := hc
  rw [hargs] at hits
  rw [hcargs] at hcts
  have hitems : ∀ t ∈ its ++ [.named name], t.isFrom = false := by
    intro t ht
    rw [Bool.eq_false_iff, ne_eq, isFrom_iff]
    rintro rfl
    rcases List.mem_append.1 ht with ht | ht
    · exact hitem.not_mem .from ht
    · simp at ht
  have hrelation : ∀ t ∈ r.tokens, t.isWhere = false := by
    intro t ht
    rw [Bool.eq_false_iff, ne_eq, isWhere_iff]
    rintro rfl
    exact r.where_not_mem ht
  have hcut : cutAt Token.isFrom
      (its ++ .named name :: .from :: (r.tokens ++ .where :: cts)) =
        (its ++ [.named name], some (r.tokens ++ .where :: cts)) := by
    rw [List.append_cons its]
    exact cutAt_append hitems rfl
  have hcut' : cutAt Token.isWhere (r.tokens ++ .where :: cts) = (r.tokens, some cts) :=
    cutAt_append hrelation rfl
  rw [Select.ofText?, tokens_select hits hname hr hcts, Select.ofTokens?, hcut]
  simp only [hcut', readItems_named hitem, readRelation_tokens,
    readCondition, readExpr_of_reads hcondition]
  rfl

end RequestLog.Sql
