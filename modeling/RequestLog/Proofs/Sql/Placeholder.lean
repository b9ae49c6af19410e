import RequestLog.Proofs.Decimal.Digits
import RequestLog.Proofs.Sql.Legible

/-!
# Placeholders

An argument stands in the text as a dollar sign with its number, or as a question
mark. `Numbered b cs is` says that the placeholders in `cs` are those of the
arguments `is`, from left to right. What is read off a text, its dollar tokens or
its question marks, follows from it.

Two placeholders never touch, and no digit stands behind one: the text of every
expression has something else on one side of each argument. Names are taken over
as they are, so they must have no such characters in them (`free`); everything
else in a text is known to have none.
-/

namespace RequestLog.Sql

def unmarked (c : Char) : Bool := c != '?' && c != '$'

theorem unmarked_iff {c : Char} : unmarked c = true ↔ c ≠ '?' ∧ c ≠ '$' := by
  rw [unmarked, Bool.and_eq_true, bne_iff_ne, bne_iff_ne]

def free (s : String) : Bool := s.toList.all unmarked

/-- A text that can stand behind an argument. -/
def separates (s : String) : Bool := s.toList.head?.any (!·.isDigit) && free s

/-- The placeholders of a text are those of these arguments, in this order. -/
inductive Numbered (b : Backend) : List Char → List Nat → Prop
  | nil : Numbered b [] []
  | char {c : Char} {cs : List Char} {is : List Nat} :
      c ≠ '?' → c ≠ '$' → Numbered b cs is → Numbered b (c :: cs) is
  | argument {i : Nat} {cs : List Char} {is : List Nat} :
      (∀ c, cs.head? = some c → c.isDigit = false ∧ c ≠ '?') → Numbered b cs is →
      Numbered b ((b.argumentText i).toList ++ cs) (i :: is)

/-! ## Reading placeholders off a text -/

/-- Every dollar sign of a text with the digits behind it. -/
def dollarTokens : List Char → List String
  | [] => []
  | c :: cs =>
      if c = '$' then
        String.ofList ('$' :: cs.takeWhile Char.isDigit) :: dollarTokens cs
      else dollarTokens cs

theorem dollarTokens_digits {ds cs : List Char} (h : ∀ d ∈ ds, d.isDigit = true) :
    dollarTokens (ds ++ cs) = dollarTokens cs := by
  induction ds with
  | nil => rfl
  | cons d rest ih =>
      obtain ⟨hd, hrest⟩ := List.forall_mem_cons.1 h
      rw [List.cons_append, dollarTokens, if_neg, ih hrest]
      rintro rfl
      exact absurd hd (by decide)

namespace Numbered

variable {b : Backend} {cs ds : List Char} {is js : List Nat}

theorem dollarTokens_eq (h : Numbered .postgres cs is) :
    dollarTokens cs = is.map Backend.postgres.argumentText := by
  induction h with
  | nil => rfl
  | char _ hc _ ih => rw [dollarTokens, if_neg hc, ih]
  | @argument i cs is hcs _ ih =>
      have hdigits : ∀ d ∈ Nat.toDigits 10 i, d.isDigit = true := fun d hd =>
        Nat.isDigit_of_mem_toDigits (by decide) (Nat.le_refl 10) hd
      rw [argumentText_postgres, String.toList_ofList, List.cons_append, dollarTokens,
        if_pos rfl, Decimal.takeWhile_digits hdigits fun c hc => (hcs c hc).1,
        dollarTokens_digits hdigits, ih, List.map_cons, argumentText_postgres]

theorem count_eq (hb : b ≠ .postgres) (h : Numbered b cs is) :
    cs.count '?' = is.length := by
  induction h with
  | nil => rfl
  | char hc _ _ ih => rw [List.count_cons_of_ne hc, ih]
  | argument _ _ ih =>
      rw [argumentText_mark hb, List.count_append, ih, List.length_cons]
      exact Nat.add_comm _ _

theorem apart (hb : b ≠ .postgres) (h : Numbered b cs is) : ¬['?', '?'] <:+: cs := by
  induction h with
  | nil => simp
  | char hc _ _ ih =>
      rw [List.infix_cons_iff]
      rintro (hpre | hin)
      · exact hc (List.cons_prefix_cons.1 hpre).1.symm
      · exact ih hin
  | @argument i cs _ hcs _ ih =>
      have hmark : (b.argumentText i).toList = ['?'] := by rw [argumentText_mark hb]; rfl
      rw [hmark, List.singleton_append, List.infix_cons_iff]
      rintro (hpre | hin)
      · have hhead := (List.cons_prefix_cons.1 hpre).2
        cases cs with
        | nil => simp at hhead
        | cons c rest => exact (hcs c rfl).2 (List.cons_prefix_cons.1 hhead).1.symm
      · exact ih hin

/-! ## Putting texts together -/

/-- What stands behind the last argument of the first text must be no digit and no
other argument. -/
theorem append (h : Numbered b cs is) (h' : Numbered b ds js)
    (hseam : ∀ c, ds.head? = some c → c.isDigit = false ∧ c ≠ '?') :
    Numbered b (cs ++ ds) (is ++ js) := by
  induction h with
  | nil => exact h'
  | char hq hd _ ih => exact .char hq hd ih
  | argument hcs _ ih =>
      rw [List.append_assoc, List.cons_append]
      refine .argument (fun c hc => ?_) ih
      rw [List.head?_append] at hc
      rcases Option.or_eq_some_iff.1 hc with hc | ⟨-, hc⟩
      · exact hcs c hc
      · exact hseam c hc

/-- Nothing in front of a text matters that has no argument in it. -/
theorem before {s t : String} (hs : free s = true) (h : Numbered b t.toList js) :
    Numbered b (s ++ t).toList js := by
  rw [free, List.all_eq_true] at hs
  rw [String.toList_append]
  generalize s.toList = cs at hs
  induction cs with
  | nil => exact h
  | cons c rest ih =>
      obtain ⟨hc, hrest⟩ := List.forall_mem_cons.1 hs
      rw [unmarked_iff] at hc
      exact .char hc.1 hc.2 (ih hrest)

theorem of_free {s : String} (h : free s = true) : Numbered b s.toList [] := by
  have hall := before (t := "") h (b := b) .nil
  rwa [String.append_empty] at hall

theorem head_of_separates {s : String} (h : separates s = true) {c : Char}
    (hc : (s.toList ++ ds).head? = some c) : c.isDigit = false ∧ c ≠ '?' := by
  rw [separates, Bool.and_eq_true, free, List.all_eq_true] at h
  cases hs : s.toList with
  | nil => rw [hs] at h; exact absurd h.1 (by decide)
  | cons d rest =>
      rw [hs] at h hc
      cases hc
      have hmark := h.2 c (List.mem_cons_self ..)
      rw [unmarked_iff] at hmark
      exact ⟨by simpa using h.1, hmark.1⟩

theorem between {s sep t : String} (h : Numbered b s.toList is)
    (hsep : separates sep = true) (h' : Numbered b t.toList js) :
    Numbered b (s ++ (sep ++ t)).toList (is ++ js) := by
  have hfree : free sep = true := by
    rw [separates, Bool.and_eq_true] at hsep
    exact hsep.2
  rw [String.toList_append]
  refine h.append (h'.before hfree) fun c hc => ?_
  rw [String.toList_append] at hc
  exact head_of_separates hsep hc

theorem behind {s sep : String} (h : Numbered b s.toList is)
    (hsep : separates sep = true) : Numbered b (s ++ sep).toList is := by
  have hall := h.between (t := "") hsep .nil
  rwa [String.append_empty, List.append_nil] at hall

end Numbered

/-! ## Numbers -/

theorem free_ofList {cs : List Char} (h : ∀ c ∈ cs, unmarked c = true) :
    free (String.ofList cs) = true := by
  rw [free, String.toList_ofList, List.all_eq_true]
  exact h

theorem unmarked_of_isDigit {c : Char} (h : c.isDigit = true) : unmarked c = true := by
  rw [unmarked_iff]
  constructor <;> (rintro rfl; exact absurd h (by decide))

theorem unmarked_of_mem_toDigits {c : Char} {n : Nat} (h : c ∈ Nat.toDigits 10 n) :
    unmarked c = true :=
  unmarked_of_isDigit (Nat.isDigit_of_mem_toDigits (by decide) (Nat.le_refl 10) h)

theorem unmarked_sign {p : Prop} [Decidable p] :
    ∀ c ∈ (if p then ['-'] else []), unmarked c = true := by
  split
  · exact List.all_eq_true.1 (by decide)
  · nofun

theorem free_intText (i : Int) : free (Decimal.intText i) = true :=
  free_ofList (List.forall_mem_append.2
    ⟨unmarked_sign, fun _ => unmarked_of_mem_toDigits⟩)

theorem unmarked_positional {d : Decimal.Digits}
    (h : ∀ c ∈ d.digits, unmarked c = true) :
    ∀ c ∈ d.positional false, unmarked c = true := by
  have hzeros : ∀ n, ∀ c ∈ Decimal.zeros n, unmarked c = true :=
    fun _ c hc => unmarked_of_isDigit (Decimal.isDigit_zeros c hc)
  have hpoint : unmarked '.' = true := rfl
  have hzero : unmarked '0' = true := rfl
  intro c hc
  simp only [Decimal.Digits.positional, Bool.false_eq_true, if_false,
    List.append_nil] at hc
  split at hc
  · simp only [List.cons_append, List.mem_cons, List.mem_append] at hc
    rcases hc with rfl | rfl | hc | hc
    · exact hzero
    · exact hpoint
    · exact hzeros _ c hc
    · exact h c hc
  · split at hc
    · rcases List.mem_append.1 hc with hc | hc
      · exact h c hc
      · exact hzeros _ c hc
    · rcases List.mem_append.1 hc with hc | hc
      · exact h c (List.mem_of_mem_take hc)
      · rcases List.mem_cons.1 hc with rfl | hc
        · exact hpoint
        · exact h c (List.mem_of_mem_drop hc)

theorem free_sqlText (x : Float) : free (Decimal.sqlText x) = true := by
  have hpositional : ∀ d : Decimal.Digits, (∀ c ∈ d.digits, unmarked c = true) →
      ∀ c ∈ d.write .sql, unmarked c = true := fun d hd => unmarked_positional hd
  simp only [Decimal.sqlText, Decimal.writeFloat]
  split
  · decide
  · split
    · exact free_ofList (List.forall_mem_append.2
        ⟨unmarked_sign, List.all_eq_true.1 (by decide)⟩)
    · split
      · exact free_ofList (List.forall_mem_append.2
          ⟨unmarked_sign, unmarked_positional (List.all_eq_true.1 (by decide))⟩)
      · exact free_ofList (List.forall_mem_append.2
          ⟨unmarked_sign, unmarked_positional fun c hc =>
            unmarked_of_isDigit (Decimal.isDigit_shortest _ c hc)⟩)

/-! ## Expressions -/

theorem numbered_argument (b : Backend) (i : Nat) :
    Numbered b (b.argumentText i).toList [i] := by
  have hall : Numbered b ((b.argumentText i).toList ++ []) [i] := .argument nofun .nil
  rwa [List.append_nil] at hall

theorem numbered_list {b : Backend} {es : List Expr}
    (h : ∀ e ∈ es, Numbered b (b.textOf e).toList e.arguments) :
    Numbered b (commaList (Expr.texts b.argumentText es)).toList
      (Expr.argumentLists es).flatten := by
  induction es with
  | nil => exact .nil
  | cons e rest ih =>
      obtain ⟨he, hrest⟩ := List.forall_mem_cons.1 h
      cases rest with
      | nil =>
          have hargs : (Expr.argumentLists [e]).flatten = e.arguments := by
            simp [Expr.argumentLists]
          rw [Expr.texts, Expr.texts, commaList_singleton, hargs]
          exact he
      | cons f more =>
          rw [Expr.texts, Expr.texts, commaList_cons_cons, Expr.argumentLists,
            List.flatten_cons, String.append_assoc]
          exact he.between (by decide) (ih hrest)

/-- The branches of a case with what stands behind them. Conditions without a result
are not written. -/
theorem numbered_branches {b : Backend} {cs rs : List Expr} {tail : String}
    {is : List Nat} (hc : ∀ e ∈ cs, Numbered b (b.textOf e).toList e.arguments)
    (hr : ∀ e ∈ rs, Numbered b (b.textOf e).toList e.arguments)
    (htail : Numbered b tail.toList is) (hhead : tail.toList.head? = some ' ') :
    let text := String.join (Expr.branches (Expr.texts b.argumentText cs)
      (Expr.texts b.argumentText rs)) ++ tail
    Numbered b text.toList
        (interleave (Expr.argumentLists cs) (Expr.argumentLists rs) ++ is) ∧
      text.toList.head? = some ' ' := by
  induction cs generalizing rs with
  | nil =>
      simp only [Expr.texts, Expr.branches, String.join_nil, String.empty_append,
        Expr.argumentLists, interleave, List.nil_append]
      exact ⟨htail, hhead⟩
  | cons c cs ih =>
      cases rs with
      | nil =>
          simp only [Expr.texts, Expr.branches, String.join_nil, String.empty_append,
            Expr.argumentLists, interleave, List.nil_append]
          exact ⟨htail, hhead⟩
      | cons r rs =>
          obtain ⟨hc, hcs⟩ := List.forall_mem_cons.1 hc
          obtain ⟨hr, hrs⟩ := List.forall_mem_cons.1 hr
          obtain ⟨hrest, hblank⟩ := ih hcs hrs
          have hresult := hr.append hrest fun x hx => by
            rw [hblank] at hx
            cases hx
            decide
          rw [← String.toList_append] at hresult
          have hall := Numbered.before (s := " WHEN ") (by decide)
            (hc.between (by decide : separates " THEN " = true) hresult)
          simp only [Expr.texts, Expr.branches, String.join_cons, String.append_assoc,
            Expr.argumentLists, interleave, List.append_assoc] at hall ⊢
          exact ⟨hall, by rw [String.toList_append]; rfl⟩

mutual

/-- The placeholders in the text of an expression are its arguments, in order. -/
theorem Expr.numbered (b : Backend) (e : Expr) (h : ∀ s ∈ e.names, free s = true) :
    Numbered b (b.textOf e).toList e.arguments := by
  match e with
  | .verbatim s => exact .of_free (h s (List.mem_singleton_self s))
  | .bare s => exact .of_free (h s (List.mem_singleton_self s))
  | .column c =>
      have htext : b.textOf (.column c) = c.table ++ ("." ++ c.column) := by
        rw [← String.append_assoc]
        rfl
      rw [Expr.names, List.forall_mem_cons, List.forall_mem_singleton] at h
      rw [htext]
      exact .before h.1 (.before (by decide) (.of_free h.2))
  | .argument i => exact numbered_argument b i
  | .truth x =>
      cases x with
      | true => exact .of_free (s := "TRUE") (by decide)
      | false => exact .of_free (s := "FALSE") (by decide)
  | .integer i => exact .of_free (free_intText i)
  | .number x => exact .of_free (free_sqlText x)
  | .call f args =>
      rw [Expr.names, List.forall_mem_cons] at h
      have hargs := numbered_list (numberedAll b args h.2)
      rw [Backend.textOf, text_call]
      exact .before h.1 (.before (by decide) (hargs.behind (by decide)))
  | .countAll => exact .of_free (s := "count(*)") (by decide)
  | .countDistinct e =>
      rw [Backend.textOf, text_countDistinct]
      exact .before (by decide) (.before (by decide) ((e.numbered b h).behind (by decide)))
  | .compare op l r =>
      rw [Expr.names, List.forall_mem_append] at h
      rw [Backend.textOf, text_compare]
      exact (l.numbered b h.1).between (by cases op <;> decide) (r.numbered b h.2)
  | .like l r =>
      rw [Expr.names, List.forall_mem_append] at h
      rw [Backend.textOf, text_like]
      exact (l.numbered b h.1).between (by decide) (r.numbered b h.2)
  | .isNull e negated =>
      rw [Backend.textOf, text_isNull]
      exact (e.numbered b h).behind (by cases negated <;> decide)
  | .oneOf e items =>
      rw [Expr.names, List.forall_mem_append] at h
      have hitems := numbered_list (numberedAll b items h.2)
      rw [Backend.textOf, text_oneOf]
      exact (e.numbered b h.1).between (by decide) (hitems.behind (by decide))
  | .not e =>
      rw [Backend.textOf, text_not]
      exact .before (by decide) ((e.numbered b h).behind (by decide))
  | .junction op l r =>
      rw [Expr.names, List.forall_mem_append] at h
      have hright := (r.numbered b h.2).behind (by decide : separates ")" = true)
      rw [Backend.textOf, text_junction]
      exact .before (by decide)
        ((l.numbered b h.1).between (by cases op <;> decide) hright)
  | .arithmetic op l r =>
      rw [Expr.names, List.forall_mem_append] at h
      rw [Backend.textOf, text_arithmetic]
      exact (l.numbered b h.1).between (by cases op <;> decide) (r.numbered b h.2)
  | .cast e type =>
      rw [Expr.names, List.forall_mem_cons] at h
      have hall := (e.numbered b h.2).between (by decide : separates " AS " = true)
        (.before h.1 (.of_free (s := ")") (by decide)))
      rw [List.append_nil] at hall
      rw [Backend.textOf, text_cast]
      exact .before (by decide) hall
  | .typed e type =>
      rw [Expr.names, List.forall_mem_cons] at h
      have hall := (e.numbered b h.2).between (by decide : separates ")::" = true)
        (.of_free h.1)
      rw [List.append_nil] at hall
      rw [Backend.textOf, text_typed]
      exact .before (by decide) hall
  | .caseWhen cs rs e =>
      rw [Expr.names, List.forall_mem_append, List.forall_mem_append] at h
      have helse := (e.numbered b h.2).behind (by decide : separates " END" = true)
      have htail := Numbered.before (s := " ELSE ") (by decide) helse
      have hall := (numbered_branches (numberedAll b cs h.1.1) (numberedAll b rs h.1.2)
        htail (by rw [String.toList_append]; rfl)).1
      rw [Backend.textOf, text_caseWhen]
      exact .before (by decide) hall

theorem Expr.numberedAll (b : Backend) (es : List Expr)
    (h : ∀ s ∈ Expr.namesOf es, free s = true) :
    ∀ e ∈ es, Numbered b (b.textOf e).toList e.arguments := by
  match es with
  | [] => nofun
  | e :: rest =>
      rw [Expr.namesOf, List.forall_mem_append] at h
      exact List.forall_mem_cons.2 ⟨e.numbered b h.1, numberedAll b rest h.2⟩

end

/-! ## Legible expressions -/

theorem free_plain {s : String} (h : plain s = true) : free s = true := by
  rw [free, List.all_eq_true]
  intro c hc
  have hchar := nameChar_of_mem h hc
  rw [unmarked_iff]
  constructor <;> (rintro rfl; exact absurd hchar (by decide))

theorem free_column {c : ColumnRef} (h : c.plain = true) :
    (Expr.column c).names.all free = true := by
  rw [ColumnRef.plain, Bool.and_eq_true] at h
  simp [Expr.names, free_plain h.1, free_plain h.2]

theorem names_list {es : List Expr} (h : ∀ e ∈ es, e.names.all free = true) :
    (Expr.namesOf es).all free = true := by
  rw [Expr.namesOf_eq_flatMap, List.all_flatMap, List.all_eq_true]
  exact h

theorem Legible.names {n : Nat} {e : Expr} (h : Legible n e) :
    e.names.all free = true := by
  induction h with
  | column hc => exact free_column hc
  | argument | truth | natural => rfl
  | call hf _ _ ih =>
      rw [Expr.names, List.all_cons, free_plain hf, names_list ih]
      rfl
  | compare _ _ _ ihl ihr | like _ _ _ ihl ihr | junction _ _ _ ihl ihr =>
      rw [Expr.names, List.all_append, ihl, ihr]
      rfl
  | isNull _ _ ih | not _ _ ih => exact ih
  | oneOf _ _ _ ih ihs =>
      rw [Expr.names, List.all_append, ih, names_list ihs]
      rfl

end RequestLog.Sql
