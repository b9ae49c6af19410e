import Mathlib.Data.List.Forall2
import RequestLog.Proofs.Sql.Grammar
import RequestLog.Proofs.Sql.Name

/-!
# Conditions read back

The text of a condition is cut into tokens from which the grammar derives that
condition, and by `Reads.unique` no other. `Legible n e` lists what an expression
may be made of: names that are read as names, and operands that bind as tightly as
their place asks for, level `n` being that of the place of `e` itself.

Two things in a text are not settled by the tree alone. An argument without a
number is counted while the text is read, so the arguments have to be numbered in
the order of the text (`Counts`); and a name with a parenthesis behind it is taken
for a function, so nothing that follows an expression may open one (`Follows`).
-/

namespace RequestLog.Sql

/-! ## What stands around an expression -/

/-- Lexemes that begin an expression behind an open parenthesis. -/
def Begins (ls : List Lexeme) : Prop :=
  ∃ l rest, ls = l :: rest ∧ l ≠ .operator "*" ∧ l ≠ .keyword .distinct

/-- Lexemes behind an expression; none of them makes a call of its last name. -/
def Follows (ls : List Lexeme) : Prop := ∀ l, ls.head? = some l → l ≠ .mark '('

theorem Begins.append {ls ms : List Lexeme} (h : Begins ls) : Begins (ls ++ ms) := by
  obtain ⟨l, rest, rfl, hstar, hdistinct⟩ := h
  exact ⟨l, rest ++ ms, rfl, hstar, hdistinct⟩

theorem begins_cons {l : Lexeme} {ls : List Lexeme} (hstar : l ≠ .operator "*")
    (hdistinct : l ≠ .keyword .distinct) : Begins (l :: ls) :=
  ⟨l, ls, rfl, hstar, hdistinct⟩

theorem follows_cons {l : Lexeme} {ls : List Lexeme} (h : l ≠ .mark '(') :
    Follows (l :: ls) := by
  intro l' hl'
  cases hl'
  exact h

attribute [local simp] tokensFrom

theorem tokensFrom_call {next : Nat} {f : String} {ls : List Lexeme}
    (h : Begins ls) :
    tokensFrom next (.name f :: .mark '(' :: ls) = .openCall f :: tokensFrom next ls := by
  obtain ⟨l, rest, rfl, hstar, hdistinct⟩ := h
  rw [tokensFrom]
  · intro _ h
    cases h
    exact hstar rfl
  · intro _ h
    cases h
    exact hdistinct rfl

theorem tokensFrom_name {next : Nat} {s : String} {ls : List Lexeme}
    (h : Follows ls) :
    tokensFrom next (.name s :: ls) = .operand (nameExpr s) :: tokensFrom next ls := by
  rw [tokensFrom] <;> (rintro rest rfl; exact h _ rfl rfl)

theorem tokensFrom_comparison {next : Nat} {op : Comparison} {ls : List Lexeme} :
    tokensFrom next (.operator op.text :: ls) =
      .binary (.compare op) :: tokensFrom next ls := by
  cases op <;> (rw [Comparison.text, tokensFrom] <;> first | rfl | simp)

def Junction.keyword : Junction → Keyword
  | .and => .and
  | .or => .or

theorem tokensFrom_junction {next : Nat} {op : Junction} {ls : List Lexeme} :
    tokensFrom next (.mark ')' :: .keyword op.keyword :: .mark '(' :: ls) =
      .close :: .binary (.junction op) :: .openParen :: tokensFrom next ls := by
  cases op <;>
    (rw [tokensFrom, Junction.keyword, tokensFrom] <;> first | rfl | simp)

/-! ## Arguments, counted while a text is read -/

/-- A text whose arguments are numbered `is` is read with the `n`th argument next,
and the `m`th is next behind it. Written numbers do not count. -/
def Counts (b : Backend) : Nat → List Nat → Nat → Prop
  | n, [], m => n = m
  | n, i :: is, m =>
      if b = .postgres then Counts b n is m else i = n ∧ Counts b (n + 1) is m

theorem counts_append {b : Backend} {n m : Nat} {is js : List Nat} :
    Counts b n (is ++ js) m ↔ ∃ k, Counts b n is k ∧ Counts b k js m := by
  induction is generalizing n with
  | nil => simp [Counts]
  | cons i rest ih =>
      rw [List.cons_append, Counts]
      split
      · next hb => simp only [ih, Counts, if_pos hb]
      · next hb => simp only [ih, Counts, if_neg hb, and_assoc, exists_and_left]

theorem counts_range (b : Backend) (n k : Nat) :
    ∃ m, Counts b n (List.range' n k) m := by
  suffices h : ∀ k n s, (b = .postgres ∨ s = n) →
      ∃ m, Counts b n (List.range' s k) m from h k n n (.inr rfl)
  intro k
  induction k with
  | zero => exact fun n _ _ => ⟨n, rfl⟩
  | succ k ih =>
      intro n s h
      rw [List.range'_succ]
      by_cases hb : b = .postgres
      · obtain ⟨m, hm⟩ := ih n (s + 1) (.inl hb)
        exact ⟨m, by rw [Counts, if_pos hb]; exact hm⟩
      · have hs : s = n := h.resolve_left hb
        obtain ⟨m, hm⟩ := ih (n + 1) (s + 1) (.inr (by omega))
        exact ⟨m, by rw [Counts, if_neg hb]; exact ⟨hs, hm⟩⟩

/-! ## Expressions that can be read -/

/-- An expression that can be read where operators of level `n` are allowed. -/
inductive Legible : Nat → Expr → Prop
  | column {n : Nat} {c : ColumnRef} : c.plain = true → Legible n (.column c)
  | argument {n : Nat} (i : Nat) : Legible n (.argument i)
  | truth {n : Nat} (b : Bool) : Legible n (.truth b)
  | natural {n k : Nat} : Decimal.fitsSigned 64 k = true → Legible n (.integer k)
  | call {n : Nat} {f : String} {e : Expr} {es : List Expr} :
      plain f = true → Keyword.ofText? f = none → (∀ x ∈ e :: es, Legible 0 x) →
      Legible n (.call f (e :: es))
  | compare {n : Nat} {op : Comparison} {l r : Expr} :
      n ≤ testLevel → Legible testLevel l → Legible (testLevel + 1) r →
      Legible n (.compare op l r)
  | like {n : Nat} {l r : Expr} :
      n ≤ testLevel → Legible testLevel l → Legible (testLevel + 1) r →
      Legible n (.like l r)
  | isNull {n : Nat} {e : Expr} {negated : Bool} :
      n ≤ testLevel → Legible testLevel e → Legible n (.isNull e negated)
  | oneOf {n : Nat} {x e : Expr} {es : List Expr} :
      n ≤ testLevel → Legible testLevel x → (∀ y ∈ e :: es, Legible 0 y) →
      Legible n (.oneOf x (e :: es))
  | not {n : Nat} {e : Expr} : n ≤ notLevel → Legible 0 e → Legible n (.not e)
  | junction {n : Nat} {op : Junction} {l r : Expr} :
      n ≤ (Binary.junction op).level → Legible 0 l → Legible 0 r →
      Legible n (.junction op l r)

/-- Lexemes with arguments numbered `is` give these tokens, wherever they stand. -/
structure Yields (b : Backend) (ls : List Lexeme) (is : List Nat)
    (ts : List Token) : Prop where
  begins : Begins ls
  tokens : ∀ n m rest, Counts b n is m → Follows rest →
    tokensFrom n (ls ++ rest) = ts ++ tokensFrom m rest

theorem Yields.single {b : Backend} (l : Lexeme) (t : Token)
    (hstar : l ≠ .operator "*") (hdistinct : l ≠ .keyword .distinct)
    (h : ∀ n rest, Follows rest → tokensFrom n (l :: rest) = t :: tokensFrom n rest) :
    Yields b [l] [] [t] where
  begins := begins_cons hstar hdistinct
  tokens := by
    rintro n m rest rfl hrest
    exact h n rest hrest

theorem Yields.between {b : Backend} {ls ms : List Lexeme} {is js : List Nat}
    {ts vs : List Token} (hl : Yields b ls is ts) (ks : List Lexeme)
    (us : List Token) (hr : Yields b ms js vs)
    (hfollows : ∀ rest, Follows (ks ++ rest))
    (hmiddle : ∀ n rest, tokensFrom n (ks ++ rest) = us ++ tokensFrom n rest) :
    Yields b (ls ++ ks ++ ms) (is ++ js) (ts ++ us ++ vs) where
  begins := by rw [List.append_assoc]; exact hl.begins.append
  tokens := by
    intro n m rest hcounts hrest
    obtain ⟨k, hk, hm⟩ := counts_append.1 hcounts
    rw [List.append_assoc, List.append_assoc, hl.tokens n k _ hk (hfollows _),
      hmiddle, hr.tokens k m rest hm hrest]
    simp only [List.append_assoc]

theorem Yields.behind {b : Backend} {ls : List Lexeme} {is : List Nat}
    {ts : List Token} (hl : Yields b ls is ts) (ks : List Lexeme) (us : List Token)
    (hfollows : ∀ rest, Follows (ks ++ rest))
    (hend : ∀ n rest, tokensFrom n (ks ++ rest) = us ++ tokensFrom n rest) :
    Yields b (ls ++ ks) is (ts ++ us) where
  begins := hl.begins.append
  tokens := by
    intro n m rest hcounts hrest
    rw [List.append_assoc, hl.tokens n m _ hcounts (hfollows _), hend,
      List.append_assoc]

theorem Yields.before {b : Backend} {ls : List Lexeme} {is : List Nat}
    {ts : List Token} (hl : Yields b ls is ts) (ks : List Lexeme) (us : List Token)
    (hbegins : ∀ ms, Begins (ks ++ ms))
    (hstart : ∀ n ms, Begins ms → tokensFrom n (ks ++ ms) = us ++ tokensFrom n ms) :
    Yields b (ks ++ ls) is (us ++ ts) where
  begins := hbegins ls
  tokens := by
    intro n m rest hcounts hrest
    rw [List.append_assoc, hstart n _ hl.begins.append,
      hl.tokens n m rest hcounts hrest, List.append_assoc]

/-- The text of an expression is cut into tokens that are read as it. -/
def ReadsBack (b : Backend) (n : Nat) (e : Expr) : Prop :=
  ∃ ts, Reads n ts e ∧ Yields b (lexemes (b.textOf e)) e.arguments ts

/-- The text of one expression is cut into tokens that are read as another, in which
what was verbatim or a number has become what it was read as. -/
def ReadsAs (b : Backend) (n : Nat) (e e' : Expr) : Prop :=
  ∃ ts, Reads n ts e' ∧ Yields b (lexemes (b.textOf e)) e.arguments ts

/-- The texts of a list, with commas between them, are read as a list. -/
theorem readsAs_list {b : Backend} {e e' : Expr} {es es' : List Expr}
    (h : List.Forall₂ (ReadsAs b 0) (e :: es) (e' :: es')) :
    ∃ ts, ReadsAll ts (e' :: es') ∧
      Yields b (lexemes (commaList (Expr.texts b.argumentText (e :: es))))
        (Expr.argumentLists (e :: es)).flatten ts := by
  induction es generalizing e e' es' with
  | nil =>
      cases h with
      | cons he hrest =>
          cases hrest
          obtain ⟨ts, hreads, hyields⟩ := he
          refine ⟨ts, .one hreads, ?_⟩
          rw [Expr.argumentLists, Expr.argumentLists, List.flatten_cons,
            List.flatten_nil, List.append_nil]
          exact hyields
  | cons x rest ih =>
      cases h with
      | cons he hrest =>
          cases hrest with
          | cons hx hmore =>
              obtain ⟨ts, hreads, hyields⟩ := he
              obtain ⟨us, hreads', hyields'⟩ := ih (.cons hx hmore)
              refine ⟨ts ++ .comma :: us, .more hreads hreads', ?_⟩
              have hcomma : lexemes ", " = [.mark ','] := by decide
              rw [Expr.texts, Expr.texts, commaList_cons_cons, String.append_assoc,
                lexemes_between (by decide) (by decide), hcomma, Expr.argumentLists,
                List.flatten_cons, List.append_cons ts]
              exact hyields.between [.mark ','] [.comma] hyields'
                (fun _ => follows_cons (by decide)) fun _ _ => rfl

/-- The texts of a list, with commas between them, are read as that list. -/
theorem readsBack_list {b : Backend} {e : Expr} {es : List Expr}
    (h : ∀ x ∈ e :: es, ReadsBack b 0 x) :
    ∃ ts, ReadsAll ts (e :: es) ∧
      Yields b (lexemes (commaList (Expr.texts b.argumentText (e :: es))))
        (Expr.argumentLists (e :: es)).flatten ts :=
  readsAs_list (List.forall₂_same.2 h)

/-! ## The text of a legible expression is read as it -/

theorem lexemes_open : lexemes "(" = [.mark '('] := by decide

theorem lexemes_close : lexemes ")" = [.mark ')'] := by decide

theorem Yields.closed {b : Backend} {ls : List Lexeme} {is : List Nat}
    {ts : List Token} (h : Yields b ls is ts) :
    Yields b (ls ++ [.mark ')']) is (ts ++ [.close]) :=
  h.behind _ _ (fun _ => follows_cons (by decide)) fun _ _ => rfl

theorem yields_argument (b : Backend) (i : Nat) :
    Yields b (lexemes (b.argumentText i)) [i] [.operand (.argument i)] := by
  rw [lexemes_argument]
  refine ⟨begins_cons (by simp) (by simp), fun n m rest hcounts _ => ?_⟩
  rw [Counts] at hcounts
  split at hcounts
  · next hb =>
      cases hcounts
      simp [hb]
  · next hb =>
      obtain ⟨rfl, rfl⟩ := hcounts
      simp [hb]

theorem yields_truth (b : Backend) (x : Bool) :
    Yields b (lexemes (if x then "TRUE" else "FALSE")) [] [.operand (.truth x)] := by
  cases x with
  | true =>
      have htext : lexemes "TRUE" = [.keyword .true] := by decide
      exact htext ▸ .single _ _ (by simp) (by simp) fun _ _ _ => by
        rw [tokensFrom] <;> first | rfl | simp
  | false =>
      have htext : lexemes "FALSE" = [.keyword .false] := by decide
      exact htext ▸ .single _ _ (by simp) (by simp) fun _ _ _ => by
        rw [tokensFrom] <;> first | rfl | simp

theorem yields_natural (b : Backend) {k : Nat}
    (hk : Decimal.fitsSigned 64 k = true) :
    Yields b (lexemes (Decimal.intText k)) [] [.operand (.integer k)] := by
  rw [lexemes_natural, ← numberExpr_natural hk]
  exact .single (.number (Decimal.intText k)) _ (by simp) (by simp) fun _ _ _ => by
    rw [tokensFrom]

theorem yields_column (b : Backend) {c : ColumnRef} (h : c.plain = true) :
    Yields b (lexemes c.text) [] [.operand (.column c)] := by
  rw [lexemes_column h, ← nameExpr_column h]
  exact .single (.name c.text) _ (by simp) (by simp) fun _ _ => tokensFrom_name

theorem Yields.binary {b : Backend} {s t sep : String} {is js : List Nat}
    {ts us : List Token} {l : Lexeme} {op : Binary}
    (hl : Yields b (lexemes s) is ts) (hr : Yields b (lexemes t) js us)
    (hbegin : beginsAlone sep = true) (hend : endsAlone sep = true)
    (hsep : lexemes sep = [l]) (hfollows : l ≠ .mark '(')
    (hop : ∀ n rest, tokensFrom n (l :: rest) = .binary op :: tokensFrom n rest) :
    Yields b (lexemes (s ++ (sep ++ t))) (is ++ js) (ts ++ .binary op :: us) := by
  rw [lexemes_between hbegin hend, hsep, List.append_cons ts]
  exact hl.between [l] [.binary op] hr (fun _ => follows_cons hfollows) hop

section

variable {b : Backend} {n : Nat} {e e' l l' r r' : Expr} {es es' : List Expr}

theorem ReadsAs.call {f : String} (hf : plain f = true)
    (hk : Keyword.ofText? f = none)
    (h : List.Forall₂ (ReadsAs b 0) (e :: es) (e' :: es')) :
    ReadsAs b n (.call f (e :: es)) (.call f (e' :: es')) := by
  obtain ⟨ts, hreads, hyields⟩ := readsAs_list h
  refine ⟨_, .primary (.call hreads), ?_⟩
  rw [Backend.textOf, text_call, lexemes_between (by decide) (by decide),
    lexemes_before (by decide), lexemes_plain hf hk, lexemes_open, lexemes_close]
  exact hyields.closed.before [.name f, .mark '('] [.openCall f]
    (fun _ => begins_cons (by simp) (by simp)) fun _ _ => tokensFrom_call

theorem ReadsBack.call {f : String} (hf : plain f = true)
    (hk : Keyword.ofText? f = none) (h : ∀ x ∈ e :: es, ReadsBack b 0 x) :
    ReadsBack b n (.call f (e :: es)) :=
  ReadsAs.call hf hk (List.forall₂_same.2 h)

theorem ReadsAs.compare {op : Comparison} (hn : n ≤ testLevel)
    (hl : ReadsAs b testLevel l l') (hr : ReadsAs b (testLevel + 1) r r') :
    ReadsAs b n (.compare op l r) (.compare op l' r') := by
  obtain ⟨ts, hreads, hyields⟩ := hl
  obtain ⟨us, hreads', hyields'⟩ := hr
  refine ⟨_, @Reads.binary n (.compare op) _ _ _ _ hn hreads hreads', ?_⟩
  have hsep : lexemes (" " ++ (op.text ++ " ")) = [.operator op.text] := by
    cases op <;> decide
  rw [Backend.textOf, text_compare]
  exact hyields.binary hyields' (by cases op <;> decide) (by cases op <;> decide)
    hsep (by simp) fun _ _ => tokensFrom_comparison

theorem ReadsBack.compare {op : Comparison} (hn : n ≤ testLevel)
    (hl : ReadsBack b testLevel l) (hr : ReadsBack b (testLevel + 1) r) :
    ReadsBack b n (.compare op l r) :=
  ReadsAs.compare hn hl hr

theorem ReadsBack.like (hn : n ≤ testLevel) (hl : ReadsBack b testLevel l)
    (hr : ReadsBack b (testLevel + 1) r) : ReadsBack b n (.like l r) := by
  obtain ⟨ts, hreads, hyields⟩ := hl
  obtain ⟨us, hreads', hyields'⟩ := hr
  refine ⟨_, @Reads.binary n .like _ _ _ _ hn hreads hreads', ?_⟩
  have hsep : lexemes " LIKE " = [.keyword .like] := by decide
  rw [Backend.textOf, text_like]
  exact hyields.binary hyields' (by decide) (by decide) hsep (by simp) fun _ _ => by
    rw [tokensFrom] <;> first | rfl | simp

theorem ReadsBack.isNull (hn : n ≤ testLevel) (h : ReadsBack b testLevel e)
    (negated : Bool) : ReadsBack b n (.isNull e negated) := by
  obtain ⟨ts, hreads, hyields⟩ := h
  refine ⟨_, .isNull hn hreads, ?_⟩
  rw [Backend.textOf, text_isNull]
  cases negated with
  | true =>
      have htest : lexemes " IS NOT NULL" =
          [.keyword .is, .keyword .not, .keyword .null] := by decide
      simp only [if_true]
      rw [lexemes_before (by decide), htest]
      exact hyields.behind _ _ (fun _ => follows_cons (by simp)) fun _ _ => by
        rw [List.cons_append, List.cons_append, List.cons_append, tokensFrom]; rfl
  | false =>
      have htest : lexemes " IS NULL" = [.keyword .is, .keyword .null] := by decide
      simp only [Bool.false_eq_true, if_false]
      rw [lexemes_before (by decide), htest]
      exact hyields.behind _ _ (fun _ => follows_cons (by simp)) fun _ _ => by
        rw [List.cons_append, List.cons_append, tokensFrom]; rfl

theorem ReadsBack.oneOf (hn : n ≤ testLevel) (hl : ReadsBack b testLevel l)
    (h : ∀ x ∈ e :: es, ReadsBack b 0 x) : ReadsBack b n (.oneOf l (e :: es)) := by
  obtain ⟨ts, hreads, hyields⟩ := hl
  obtain ⟨us, hreads', hyields'⟩ := readsBack_list h
  refine ⟨_, .oneOf hn hreads hreads', ?_⟩
  have hin : lexemes " IN (" = [.keyword .in, .mark '('] := by decide
  rw [Backend.textOf, text_oneOf, lexemes_between (by decide) (by decide),
    lexemes_before (by decide), hin, lexemes_close]
  have hmiddle : ∀ k rest, tokensFrom k ([.keyword .in, .mark '('] ++ rest) =
      [.oneOf] ++ tokensFrom k rest := fun _ _ => by
    rw [List.cons_append, List.cons_append, tokensFrom]
    rfl
  have hall := hyields.between [.keyword .in, .mark '('] [.oneOf] hyields'.closed
    (fun _ => follows_cons (by simp)) hmiddle
  rw [List.append_assoc ts] at hall ⊢
  exact hall

theorem ReadsBack.not (hn : n ≤ notLevel) (h : ReadsBack b 0 e) :
    ReadsBack b n (.not e) := by
  obtain ⟨ts, hreads, hyields⟩ := h
  refine ⟨_, .not hn (.primary (.paren hreads)), ?_⟩
  have hnot : lexemes "NOT (" = [.keyword .not, .mark '('] := by decide
  rw [Backend.textOf, text_not, lexemes_after (by decide),
    lexemes_before (by decide), hnot, lexemes_close]
  exact hyields.closed.before [.keyword .not, .mark '('] [.not, .openParen]
    (fun _ => begins_cons (by simp) (by simp)) fun _ _ _ => by
      rw [List.cons_append, List.cons_append, tokensFrom] <;> first | rfl | simp

theorem ReadsBack.junction {op : Junction} (hn : n ≤ (Binary.junction op).level)
    (hl : ReadsBack b 0 l) (hr : ReadsBack b 0 r) : ReadsBack b n (.junction op l r) := by
  obtain ⟨ts, hreads, hyields⟩ := hl
  obtain ⟨us, hreads', hyields'⟩ := hr
  refine ⟨_, @Reads.binary n (.junction op) _ _ _ _ hn (.primary (.paren hreads))
    (.primary (.paren hreads')), ?_⟩
  have hsep : lexemes (") " ++ (op.text ++ " (")) =
      [.mark ')', .keyword op.keyword, .mark '('] := by cases op <;> decide
  have hbegin : beginsAlone (") " ++ (op.text ++ " (")) = true := by cases op <;> decide
  have hend : endsAlone (") " ++ (op.text ++ " (")) = true := by cases op <;> decide
  rw [Backend.textOf, text_junction, lexemes_after (by decide),
    lexemes_between hbegin hend, hsep, lexemes_before (by decide), lexemes_open,
    lexemes_close]
  have hall := hyields.between [.mark ')', .keyword op.keyword, .mark '(']
    [.close, .binary (.junction op), .openParen] hyields'.closed
    (fun _ => follows_cons (by decide)) fun _ _ => tokensFrom_junction
  have hstart := hall.before [.mark '('] [.openParen]
    (fun _ => begins_cons (by simp) (by simp)) fun _ _ _ => rfl
  simp only [List.append_assoc, List.cons_append, List.nil_append] at hstart ⊢
  exact hstart

theorem Legible.readsBack (h : Legible n e) : ReadsBack b n e := by
  induction h with
  | column hc => exact ⟨_, .primary (.operand _), yields_column b hc⟩
  | argument i => exact ⟨_, .primary (.operand _), yields_argument b i⟩
  | truth x => exact ⟨_, .primary (.operand _), yields_truth b x⟩
  | natural hk => exact ⟨_, .primary (.operand _), yields_natural b hk⟩
  | call hf hk _ ih => exact .call hf hk ih
  | compare hn _ _ ihl ihr => exact .compare hn ihl ihr
  | like hn _ _ ihl ihr => exact .like hn ihl ihr
  | isNull hn _ ih => exact .isNull hn ih _
  | oneOf hn _ _ ih ihs => exact .oneOf hn ih ihs
  | not hn _ ih => exact .not hn ih
  | junction hn _ _ ihl ihr => exact .junction hn ihl ihr

end

/-- A text behind `k` other arguments is read as what its tokens are read as. -/
theorem ReadsAs.reads {b : Backend} {e e' : Expr} {k count : Nat} (h : ReadsAs b 0 e e')
    (hargs : e.arguments = List.range' (k + 1) count) :
    Reads 0 (tokensFrom (k + 1) (lexemes (b.textOf e))) e' := by
  obtain ⟨ts, hreads, hyields⟩ := h
  obtain ⟨m, hm⟩ := counts_range b (k + 1) count
  have hts := hyields.tokens (k + 1) m [] (hargs ▸ hm) (by rintro l ⟨⟩)
  rw [List.append_nil, tokensFrom, List.append_nil] at hts
  rw [hts]
  exact hreads

/-- A text that stands alone, its arguments numbered from one, is read as what it
was made from. -/
theorem Legible.reads {b : Backend} {e : Expr} {k : Nat} (h : Legible 0 e)
    (hargs : e.arguments = List.range' 1 k) : Reads 0 (tokens (b.textOf e)) e :=
  ReadsAs.reads h.readsBack hargs

end RequestLog.Sql
