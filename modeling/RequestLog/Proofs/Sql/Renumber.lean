import RequestLog.Proofs.Filter.InPlace

/-!
# Arguments behind other arguments

A condition that stands behind `k` arguments is not compiled once more: its text is the
one it has alone with `k` added to the number of every argument. Where arguments have
no numbers that is the same text.

`renumber` does this to a text without knowing what it says. It finds the digits behind
a dollar sign, so it may be used on a text part by part only where no number is cut in
two; `Renumbers` leaves the rest of the text open, but for a digit at its head.
-/

namespace RequestLog.Sql

/-- The digits of the number that is `k` more. Where there are none there is no number. -/
def raised (k : Nat) (ds : List Char) : List Char :=
  if ds.isEmpty then [] else Nat.toDigits 10 (Decimal.spelled ds + k)

/-- Adds `k` to the number behind every dollar sign of a text. -/
def renumber (k : Nat) : List Char → List Char
  | [] => []
  | c :: cs =>
      if c = '$' then
        '$' :: (raised k (cs.takeWhile Char.isDigit)
          ++ renumber k (cs.dropWhile Char.isDigit))
      else c :: renumber k cs
  termination_by cs => cs.length
  decreasing_by
    · exact Nat.lt_succ_of_le (List.dropWhile_sublist _).length_le
    · exact Nat.lt_succ_self _

theorem renumber_nil (k : Nat) : renumber k [] = [] := by
  rw [renumber]

theorem renumber_append {k : Nat} {cs ds : List Char} (h : ∀ c ∈ cs, c ≠ '$') :
    renumber k (cs ++ ds) = cs ++ renumber k ds := by
  induction cs with
  | nil => rfl
  | cons c rest ih =>
      obtain ⟨hc, hrest⟩ := List.forall_mem_cons.1 h
      rw [List.cons_append, renumber, if_neg hc, ih hrest, List.cons_append]

theorem renumber_number {k i : Nat} {cs : List Char}
    (hcs : ∀ c, cs.head? = some c → c.isDigit = false) :
    renumber k ('$' :: (Nat.toDigits 10 i ++ cs)) =
      '$' :: (Nat.toDigits 10 (i + k) ++ renumber k cs) := by
  have hdigits : ∀ d ∈ Nat.toDigits 10 i, d.isDigit = true := fun d hd =>
    Nat.isDigit_of_mem_toDigits (by decide) (Nat.le_refl 10) hd
  have hsome : (Nat.toDigits 10 i).isEmpty = false := by
    rw [List.isEmpty_eq_false_iff]
    exact Nat.toDigits_ne_nil
  rw [renumber, if_pos rfl, Decimal.takeWhile_digits hdigits hcs,
    Decimal.dropWhile_digits hdigits hcs, raised, hsome, Decimal.spelled_toDigits]
  rfl

/-! ## Parts of a text -/

/-- The second text is the first renumbered, whatever comes behind it. -/
def Renumbers (k : Nat) (s t : String) : Prop :=
  ∀ rest : List Char, (∀ c, rest.head? = some c → c.isDigit = false) →
    renumber k (s.toList ++ rest) = t.toList ++ renumber k rest

namespace Renumbers

variable {k : Nat} {s s' t t' sep : String}

theorem nil : Renumbers k "" "" := fun _ _ => rfl

theorem whole (h : Renumbers k s t) : renumber k s.toList = t.toList := by
  have hall := h [] nofun
  rwa [List.append_nil, renumber_nil, List.append_nil] at hall

theorem before (hs : free s = true) (h : Renumbers k t t') :
    Renumbers k (s ++ t) (s ++ t') := by
  rw [free, List.all_eq_true] at hs
  intro rest hrest
  rw [String.toList_append, String.toList_append, List.append_assoc, List.append_assoc,
    renumber_append fun c hc => (unmarked_iff.1 (hs c hc)).2, h rest hrest]

theorem of_free (hs : free s = true) : Renumbers k s s := by
  have hall := before hs (nil (k := k))
  rwa [String.append_empty] at hall

theorem between (h : Renumbers k s s') (hsep : separates sep = true)
    (h' : Renumbers k t t') : Renumbers k (s ++ (sep ++ t)) (s' ++ (sep ++ t')) := by
  have hfree : free sep = true := by
    rw [separates, Bool.and_eq_true] at hsep
    exact hsep.2
  intro rest hrest
  have hhead : ∀ c, ((sep ++ t).toList ++ rest).head? = some c → c.isDigit = false := by
    intro c hc
    rw [String.toList_append, List.append_assoc] at hc
    exact (Numbered.head_of_separates hsep hc).1
  rw [String.toList_append (s := s), String.toList_append (s := s'), List.append_assoc, h _ hhead,
    h'.before hfree rest hrest, List.append_assoc]

theorem behind (h : Renumbers k s s') (hsep : separates sep = true) :
    Renumbers k (s ++ sep) (s' ++ sep) := by
  have hall := h.between hsep nil
  rwa [String.append_empty] at hall

theorem argument (i : Nat) :
    Renumbers k (Backend.argumentText .postgres i) (Backend.argumentText .postgres (i + k)) := by
  intro rest hrest
  rw [argumentText_postgres, argumentText_postgres, String.toList_ofList,
    String.toList_ofList]
  exact renumber_number hrest

theorem commaList {g g' : Nat → String} {es : List Expr}
    (h : ∀ e ∈ es, Renumbers k (e.text g) (e.text g')) :
    Renumbers k (commaList (Expr.texts g es)) (commaList (Expr.texts g' es)) := by
  induction es with
  | nil => exact of_free (s := "") (by decide)
  | cons e rest ih =>
      obtain ⟨he, hrest⟩ := List.forall_mem_cons.1 h
      cases rest with
      | nil =>
          simp only [Expr.texts, commaList_singleton]
          exact he
      | cons f more =>
          simp only [Expr.texts, commaList_cons_cons, String.append_assoc]
          exact he.between (by decide) (ih hrest)

end Renumbers

end RequestLog.Sql

namespace RequestLog

open Sql

/-! ## Expressions -/

/-- The text of an expression whose arguments come behind `k` others. -/
def Backend.textBehind (b : Backend) (k : Nat) (e : Expr) : String :=
  e.text fun i => b.argumentText (i + k)

/-- On the one backend that numbers its arguments, a text with `k` added to their
numbers. -/
def Backend.renumbered (b : Backend) (k : Nat) (text : String) : String :=
  if b = .postgres then String.ofList (renumber k text.toList) else text

example : Backend.postgres.renumbered 3 "a.b = $1 AND a.c < $12" = "a.b = $4 AND a.c < $15" :=
  by decide +kernel

theorem Sql.Legible.renumbers {k n : Nat} {e : Expr} (h : Legible n e) :
    Renumbers k (Backend.textOf .postgres e) (Backend.textBehind .postgres k e) := by
  induction h with
  | @column _ c hc =>
      have htext : c.text = c.table ++ ("." ++ c.column) := by
        rw [ColumnRef.text, ← String.append_assoc]
        rfl
      rw [ColumnRef.plain, Bool.and_eq_true] at hc
      rw [Backend.textOf, Backend.textBehind, Expr.text, Expr.text, htext]
      exact .before (free_plain hc.1) (.before (by decide) (.of_free (free_plain hc.2)))
  | argument i => exact .argument i
  | truth x =>
      cases x with
      | true => exact .of_free (s := "TRUE") (by decide)
      | false => exact .of_free (s := "FALSE") (by decide)
  | natural _ => exact .of_free (free_intText _)
  | call hf _ _ ih =>
      have hargs := (Renumbers.commaList ih).behind (by decide : separates ")" = true)
      rw [Backend.textOf, Backend.textBehind, text_call, text_call]
      exact .before (free_plain hf) (.before (by decide) hargs)
  | @compare _ op _ _ _ _ _ ihl ihr =>
      rw [Backend.textOf, Backend.textBehind, text_compare, text_compare]
      exact ihl.between (by cases op <;> decide) ihr
  | like _ _ _ ihl ihr =>
      rw [Backend.textOf, Backend.textBehind, text_like, text_like]
      exact ihl.between (by decide) ihr
  | @isNull _ _ negated _ _ ih =>
      rw [Backend.textOf, Backend.textBehind, text_isNull, text_isNull]
      exact ih.behind (by cases negated <;> decide)
  | oneOf _ _ _ ih ihs =>
      have hitems := (Renumbers.commaList ihs).behind (by decide : separates ")" = true)
      rw [Backend.textOf, Backend.textBehind, text_oneOf, text_oneOf]
      exact ih.between (by decide) hitems
  | not _ _ ih =>
      rw [Backend.textOf, Backend.textBehind, text_not, text_not]
      exact .before (by decide) (ih.behind (by decide))
  | @junction _ op _ _ _ _ _ ihl ihr =>
      have hright := ihr.behind (by decide : separates ")" = true)
      rw [Backend.textOf, Backend.textBehind, text_junction, text_junction]
      exact .before (by decide) (ihl.between (by cases op <;> decide) hright)

theorem Sql.Legible.textBehind_eq {b : Backend} {k n : Nat} {e : Expr} (h : Legible n e) :
    b.textBehind k e = b.renumbered k (b.textOf e) := by
  rw [Backend.renumbered]
  split
  · next hb => rw [hb, h.renumbers.whole, String.ofList_toList]
  · next hb =>
      have hsame : (fun i => b.argumentText (i + k)) = b.argumentText :=
        funext fun i => by rw [argumentText_mark hb, argumentText_mark hb]
      rw [Backend.textBehind, hsame, Backend.textOf]

/-! ## Conditions -/

theorem Backend.textBehind_bound (b : Backend) (k : Nat) (kind : Kind) (i : Nat) :
    b.textOf (b.bound kind (i + k)) = b.textBehind k (b.bound kind i) := by
  rw [bound, bound, textOf, textBehind]
  exact text_beside kind rfl

theorem Backend.texts_bound_behind (b : Backend) (k n count : Nat) (kind : Kind) :
    Expr.texts b.argumentText ((List.range' (n + k) count).map (b.bound kind)) =
      Expr.texts (fun i => b.argumentText (i + k))
        ((List.range' n count).map (b.bound kind)) := by
  induction count generalizing n with
  | zero => rfl
  | succ count ih =>
      have hrest := ih (n + 1)
      rw [Nat.add_right_comm] at hrest
      rw [List.range'_succ, List.range'_succ, List.map_cons, List.map_cons, Expr.texts,
        Expr.texts, hrest]
      exact congrArg (· :: _) (b.textBehind_bound k kind n)

theorem Test.textBehind (b : Backend) (field : Field) (t : Test) (n k : Nat) :
    b.textOf (t.expr b field (n + k)) = b.textBehind k (t.expr b field n) := by
  have hbound := b.textBehind_bound k field.kind (n + 1)
  rw [Nat.add_right_comm, Backend.textOf, Backend.textBehind] at hbound
  rw [Backend.textOf, Backend.textBehind]
  cases t with
  | isNull negated => rfl
  | compare op v => rw [expr, expr, Expr.text, Expr.text, hbound]; rfl
  | like v => rw [expr, expr, Expr.text, Expr.text, hbound]; rfl
  | contains v => exact Backend.text_contains hbound
  | oneOf vs =>
      cases vs with
      | nil => rfl
      | cons v rest =>
          have hall := b.texts_bound_behind k (n + 1) (v :: rest).length field.kind
          rw [Nat.add_right_comm] at hall
          rw [expr, expr, Expr.text, Expr.text, hall]
          rfl

/-- A condition behind `k` more arguments has the same text with higher numbers. -/
theorem Condition.textBehind (b : Backend) (c : Condition) (n k : Nat) :
    b.textOf (c.expr b (n + k)) = b.textBehind k (c.expr b n) := by
  induction c generalizing n with
  | always => rfl
  | test field t => exact t.textBehind b field n k
  | junction op left right ihl ihr =>
      have hl := ihl n
      have hr := ihr (n + left.operands.length)
      rw [Nat.add_right_comm] at hr
      rw [Backend.textOf, Backend.textBehind] at hl hr ⊢
      rw [expr, expr, Expr.text, Expr.text, hl, hr]

end RequestLog
