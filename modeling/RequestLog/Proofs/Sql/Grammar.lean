import RequestLog.Sql.Reader

/-!
# The grammar of expressions, and that it is unambiguous

`Reads n ts e` is the grammar as a book on SQL would print it: the tokens `ts`
spell `e`, and no operator outside of parentheses binds looser than level `n`.
The left operand of a binary operator may be as tight as the operator itself and
the right one has to be tighter, so equal operators group to the left; `OR` is
looser than `AND`, `AND` than `NOT`, `NOT` than comparisons, and those are looser
than arithmetic. Nothing in it knows of a stack.

`Reads.unique` says that tokens have one reading at most. The proof goes through
the reader: whatever the grammar derives, the reader finds (`readExpr_of_reads`),
and the reader is a function. While it reads the tokens of `e` it may leave
operators open, because what comes next could bind tighter; the invariant is that
closing them yields `e` on the stack there was before, at every level that the
grammar still allows for.
-/

namespace RequestLog.Sql

mutual

/-- What can stand on either side of any operator. -/
inductive Primary : List Token → Expr → Prop
  | operand (e : Expr) : Primary [.operand e] e
  | paren {ts : List Token} {e : Expr} :
      Reads 0 ts e → Primary (.openParen :: ts ++ [.close]) e
  | call {f : String} {ts : List Token} {es : List Expr} :
      ReadsAll ts es → Primary (.openCall f :: ts ++ [.close]) (.call f es)
  | distinct {ts : List Token} {e : Expr} :
      Reads 0 ts e → Primary (.openDistinct :: ts ++ [.close]) (.countDistinct e)
  | cast {ts : List Token} {e : Expr} {type : String} :
      Reads 0 ts e → Primary (.openCast :: ts ++ [.closeCast type]) (.cast e type)
  | typed {ts : List Token} {e : Expr} {type : String} :
      Primary ts e → Primary (ts ++ [.typed type]) (.typed e type)
  | caseWhen {ts us : List Token} {cs rs : List Expr} {e : Expr} :
      ReadsBranches ts cs rs → Reads 0 us e →
      Primary (.caseWhen :: ts ++ .else :: us ++ [.end]) (.caseWhen cs rs e)

/-- Tokens of an expression whose open operators have at least a given level. -/
inductive Reads : Nat → List Token → Expr → Prop
  | primary {n : Nat} {ts : List Token} {e : Expr} : Primary ts e → Reads n ts e
  | not {n : Nat} {ts : List Token} {e : Expr} :
      n ≤ notLevel → Reads notLevel ts e → Reads n (.not :: ts) (.not e)
  | binary {n : Nat} {op : Binary} {ls rs : List Token} {l r : Expr} :
      n ≤ op.level → Reads op.level ls l → Reads (op.level + 1) rs r →
      Reads n (ls ++ .binary op :: rs) (op.apply l r)
  | isNull {n : Nat} {ts : List Token} {e : Expr} {negated : Bool} :
      n ≤ testLevel → Reads testLevel ts e →
      Reads n (ts ++ [.isNull negated]) (.isNull e negated)
  | oneOf {n : Nat} {ts us : List Token} {e : Expr} {es : List Expr} :
      n ≤ testLevel → Reads testLevel ts e → ReadsAll us es →
      Reads n (ts ++ .oneOf :: us ++ [.close]) (.oneOf e es)

/-- Expressions with commas between them. -/
inductive ReadsAll : List Token → List Expr → Prop
  | one {ts : List Token} {e : Expr} : Reads 0 ts e → ReadsAll ts [e]
  | more {ts us : List Token} {e : Expr} {es : List Expr} :
      Reads 0 ts e → ReadsAll us es → ReadsAll (ts ++ .comma :: us) (e :: es)

/-- The branches of a case, without the word that opens the first of them. -/
inductive ReadsBranches : List Token → List Expr → List Expr → Prop
  | one {ts us : List Token} {c r : Expr} :
      Reads 0 ts c → Reads 0 us r → ReadsBranches (ts ++ .then :: us) [c] [r]
  | more {ts us vs : List Token} {c r : Expr} {cs rs : List Expr} :
      Reads 0 ts c → Reads 0 us r → ReadsBranches vs cs rs →
      ReadsBranches (ts ++ .then :: us ++ .when :: vs) (c :: cs) (r :: rs)

end

/-! ## The reader, one token at a time -/

namespace Reader

def run (r : Reader) (ts : List Token) : Option Reader := ts.foldlM step r

theorem run_append {r r' : Reader} {ts us : List Token}
    (h : r.run ts = some r') : r.run (ts ++ us) = r'.run us := by
  rw [run] at h
  rw [run, List.foldlM_append, h]
  rfl

theorem run_cons {r r' : Reader} {t : Token} {ts : List Token}
    (h : r.step t = some r') : r.run (t :: ts) = r'.run ts := by
  rw [run, List.foldlM_cons, h]
  rfl

theorem run_single {r : Reader} {t : Token} : r.run [t] = r.step t := by
  rw [run, List.foldlM_cons]
  cases r.step t <;> rfl

variable {items : List (Expr × Option String)} {stack stack' : List Frame}
variable {e e' : Expr}

theorem step_operator {t : Token} :
    (Reader.mk items stack (.operator e)).step t =
      (Reader.mk items stack (.operator e)).operatorStep e t := rfl

/-- The tokens that end an operand and look into the frame behind it. -/
inductive Ends : Token → Prop
  | close : Ends .close
  | closeCast (type : String) : Ends (.closeCast type)
  | comma : Ends .comma
  | when : Ends .when
  | then : Ends .then
  | else : Ends .else
  | end : Ends .end

theorem step_end {t : Token} (ht : Ends t)
    (hc : close 0 stack' e' = (stack, e)) :
    (Reader.mk items stack' (.operator e')).step t =
      (Reader.mk items stack (.operator e')).endStep e t := by
  cases ht <;> (rw [step_operator]; simp only [operatorStep, hc])

theorem step_then {cs rs : List Expr}
    (hc : close 0 stack' e' = (.when cs rs :: stack, e)) :
    (Reader.mk items stack' (.operator e')).step .then =
      some ⟨items, .then (e :: cs) rs :: stack, .operand⟩ := by
  rw [step_end .then hc]
  rfl

/-- A frame of a list of expressions, as far as the list has been read. -/
inductive ListFrame : (List Expr → Frame) → Prop
  | call (f : String) : ListFrame (.call f)
  | oneOf (e : Expr) : ListFrame (.oneOf e)

theorem ListFrame.close {frame : List Expr → Frame} (h : ListFrame frame)
    {done : List Expr} {n : Nat} :
    close n (frame done :: stack) e = (frame done :: stack, e) := by
  cases h <;> rfl

theorem ListFrame.comma {frame : List Expr → Frame} (h : ListFrame frame)
    {done : List Expr}
    (hc : Reader.close 0 stack' e' = (frame done :: stack, e)) :
    (Reader.mk items stack' (.operator e')).step .comma =
      some ⟨items, frame (e :: done) :: stack, .operand⟩ := by
  rw [step_end .comma hc]
  cases h <;> rfl

end Reader

open Reader

/-! ## Stacks that an operator leaves alone -/

/-- No operator of level `n` or tighter would close anything on the stack. -/
def Firm (n : Nat) (stack : List Frame) : Prop :=
  ∀ op : Binary, n ≤ op.level → ∀ e, close op.level stack e = (stack, e)

theorem Firm.mono {n m : Nat} {stack : List Frame} (h : Firm n stack)
    (hle : n ≤ m) : Firm m stack :=
  fun op hop => h op (Nat.le_trans hle hop)

theorem Firm.test {n : Nat} {stack : List Frame} (h : Firm n stack)
    (hn : n ≤ testLevel) (e : Expr) : close testLevel stack e = (stack, e) :=
  h .like hn e

theorem firm_binary {l : Expr} {op : Binary} {stack : List Frame} :
    Firm (op.level + 1) (.binary l op :: stack) := by
  intro op' hop e
  rw [close, if_neg (by omega)]

theorem Binary.level_ne_notLevel (op : Binary) : op.level ≠ notLevel := by
  cases op with
  | compare op => cases op <;> decide
  | like => decide
  | arithmetic op => cases op <;> decide
  | junction op => cases op <;> decide

/-- What is tighter than a negation leaves it open. -/
theorem firm_not {stack : List Frame} : Firm notLevel (.not :: stack) := by
  intro op hop e
  have hne := op.level_ne_notLevel
  rw [close, if_neg (by omega)]

theorem firm_list {frame : List Expr → Frame} (h : ListFrame frame) {n : Nat}
    {done : List Expr} {stack : List Frame} : Firm n (frame done :: stack) :=
  fun _ _ _ => h.close

/-! ## Whatever the grammar derives, the reader finds

The four parts of the grammar are gone through together, along the derivation. -/

mutual

theorem Primary.run {ts : List Token} {e : Expr} (h : Primary ts e)
    (items : List (Expr × Option String)) (stack : List Frame) :
    (Reader.mk items stack .operand).run ts =
      some ⟨items, stack, .operator e⟩ := by
  match h with
  | .operand e => rfl
  | .paren h =>
      have hopen : (Reader.mk items stack .operand).step .openParen =
          some ⟨items, .paren :: stack, .operand⟩ := rfl
      obtain ⟨stack', e', hrun, hclose⟩ :=
        h.run items (.paren :: stack) (fun _ _ _ => rfl)
      rw [List.cons_append, run_cons hopen, run_append hrun, run_single]
      rw [step_end .close (hclose 0 (Nat.le_refl 0))]
      rfl
  | .call (f := f) h =>
      have hopen : (Reader.mk items stack .operand).step (.openCall f) =
          some ⟨items, .call f [] :: stack, .operand⟩ := rfl
      obtain ⟨stack', e', done, last, hrun, hclose, hdone⟩ :=
        h.run (.call f) items stack []
      rw [List.cons_append, run_cons hopen, run_append hrun, run_single]
      rw [step_end .close hclose]
      simp only [endStep, hdone]
      rfl
  | .distinct h =>
      have hopen : (Reader.mk items stack .operand).step .openDistinct =
          some ⟨items, .distinct :: stack, .operand⟩ := rfl
      obtain ⟨stack', e', hrun, hclose⟩ :=
        h.run items (.distinct :: stack) (fun _ _ _ => rfl)
      rw [List.cons_append, run_cons hopen, run_append hrun, run_single]
      rw [step_end .close (hclose 0 (Nat.le_refl 0))]
      rfl
  | .cast h =>
      have hopen : (Reader.mk items stack .operand).step .openCast =
          some ⟨items, .cast :: stack, .operand⟩ := rfl
      obtain ⟨stack', e', hrun, hclose⟩ :=
        h.run items (.cast :: stack) (fun _ _ _ => rfl)
      rw [List.cons_append, run_cons hopen, run_append hrun, run_single]
      rw [step_end (.closeCast _) (hclose 0 (Nat.le_refl 0))]
      rfl
  | .typed h =>
      rw [run_append (h.run items stack), run_single]
      rfl
  | .caseWhen hb he =>
      have hopen : (Reader.mk items stack .operand).step .caseWhen =
          some ⟨items, .when [] [] :: stack, .operand⟩ := rfl
      obtain ⟨stack₁, e₁, cs, rs, r, hrun₁, hclose₁, hcs, hrs⟩ :=
        hb.run items stack [] []
      have helse : (Reader.mk items stack₁ (.operator e₁)).step .else =
          some ⟨items, .else cs (r :: rs) :: stack, .operand⟩ := by
        rw [step_end .else hclose₁]
        rfl
      obtain ⟨stack₂, e₂, hrun₂, hclose₂⟩ :=
        he.run items (.else cs (r :: rs) :: stack) (fun _ _ _ => rfl)
      rw [List.append_assoc, List.cons_append, List.cons_append]
      rw [run_cons hopen, run_append hrun₁, run_cons helse, run_append hrun₂]
      rw [run_single, step_end .end (hclose₂ 0 (Nat.le_refl 0))]
      simp only [endStep, hcs, hrs]
      rfl

theorem Reads.run {n : Nat} {ts : List Token} {e : Expr} (h : Reads n ts e)
    (items : List (Expr × Option String)) (stack : List Frame)
    (hs : Firm n stack) :
    ∃ stack' e',
      (Reader.mk items stack .operand).run ts =
        some ⟨items, stack', .operator e'⟩ ∧
      ∀ m ≤ n, close m stack' e' = close m stack e := by
  match h with
  | .primary h => exact ⟨stack, e, h.run items stack, fun _ _ => rfl⟩
  | .not hn h =>
      have hopen : (Reader.mk items stack .operand).step .not =
          some ⟨items, .not :: stack, .operand⟩ := rfl
      obtain ⟨stack', e', hrun, hclose⟩ := h.run items (.not :: stack) firm_not
      refine ⟨stack', e', ?_, fun m hm => ?_⟩
      · rw [run_cons hopen]
        exact hrun
      · have hm' := Nat.le_trans hm hn
        rw [hclose m hm', close, if_pos hm']
  | @Reads.binary _ op _ _ l _ hn hl hr =>
      obtain ⟨stack₁, l', hrun₁, hclose₁⟩ := hl.run items stack (hs.mono hn)
      obtain ⟨stack₂, r', hrun₂, hclose₂⟩ :=
        hr.run items (.binary l op :: stack) firm_binary
      have hop : (Reader.mk items stack₁ (.operator l')).step (.binary op) =
          some ⟨items, .binary l op :: stack, .operand⟩ := by
        rw [step_operator]
        simp only [operatorStep, hclose₁ op.level (Nat.le_refl _), hs op hn]
        rfl
      refine ⟨stack₂, r', ?_, fun m hm => ?_⟩
      · rw [run_append hrun₁, run_cons hop]
        exact hrun₂
      · rw [hclose₂ m (by omega), close, if_pos (Nat.le_trans hm hn)]
  | .isNull hn h =>
      obtain ⟨stack₁, e₁, hrun, hclose⟩ := h.run items stack (hs.mono hn)
      refine ⟨stack, _, ?_, fun _ _ => rfl⟩
      rw [run_append hrun, run_single, step_operator]
      simp only [operatorStep, hclose testLevel (Nat.le_refl _), hs.test hn]
      rfl
  | .oneOf (e := x) hn h hes =>
      obtain ⟨stack₁, e₁, hrun₁, hclose₁⟩ := h.run items stack (hs.mono hn)
      obtain ⟨stack₂, e₂, done, last, hrun₂, hclose₂, hdone⟩ :=
        hes.run (.oneOf x) items stack []
      have hin : (Reader.mk items stack₁ (.operator e₁)).step .oneOf =
          some ⟨items, .oneOf x [] :: stack, .operand⟩ := by
        rw [step_operator]
        simp only [operatorStep, hclose₁ testLevel (Nat.le_refl _), hs.test hn]
        rfl
      refine ⟨stack, _, ?_, fun _ _ => rfl⟩
      rw [List.append_assoc, List.cons_append, run_append hrun₁, run_cons hin]
      rw [run_append hrun₂, run_single, step_end .close hclose₂]
      simp only [endStep, hdone]
      rfl

/-- The last expression of a list is still due when its tokens have been read. -/
theorem ReadsAll.run {ts : List Token} {es : List Expr} (h : ReadsAll ts es)
    {frame : List Expr → Frame} (hf : ListFrame frame)
    (items : List (Expr × Option String)) (stack : List Frame)
    (done : List Expr) :
    ∃ stack' e' done' last,
      (Reader.mk items (frame done :: stack) .operand).run ts =
        some ⟨items, stack', .operator e'⟩ ∧
      close 0 stack' e' = (frame done' :: stack, last) ∧
      done'.reverse ++ [last] = done.reverse ++ es := by
  match h with
  | .one (e := e) h =>
      obtain ⟨stack', e', hrun, hclose⟩ :=
        h.run items (frame done :: stack) (firm_list hf)
      refine ⟨stack', e', done, e, hrun, ?_, rfl⟩
      rw [hclose 0 (Nat.le_refl 0), hf.close]
  | .more (e := e) h hes =>
      obtain ⟨stack₁, e₁, hrun₁, hclose₁⟩ :=
        h.run items (frame done :: stack) (firm_list hf)
      have hcomma : (Reader.mk items stack₁ (.operator e₁)).step .comma =
          some ⟨items, frame (e :: done) :: stack, .operand⟩ :=
        hf.comma ((hclose₁ 0 (Nat.le_refl 0)).trans hf.close)
      obtain ⟨stack₂, e₂, done', last, hrun₂, hclose₂, hdone⟩ :=
        hes.run hf items stack (e :: done)
      refine ⟨stack₂, e₂, done', last, ?_, hclose₂, ?_⟩
      · rw [run_append hrun₁, run_cons hcomma]
        exact hrun₂
      · rw [hdone, List.reverse_cons, List.append_assoc]
        rfl

/-- The last result of a case is still due when its branches have been read. -/
theorem ReadsBranches.run {ts : List Token} {cs rs : List Expr}
    (h : ReadsBranches ts cs rs) (items : List (Expr × Option String))
    (stack : List Frame) (cs₀ rs₀ : List Expr) :
    ∃ stack' e' cs' rs' r,
      (Reader.mk items (.when cs₀ rs₀ :: stack) .operand).run ts =
        some ⟨items, stack', .operator e'⟩ ∧
      close 0 stack' e' = (.then cs' rs' :: stack, r) ∧
      cs'.reverse = cs₀.reverse ++ cs ∧
      (r :: rs').reverse = rs₀.reverse ++ rs := by
  match h with
  | .one (c := c) (r := r) hc hr =>
      obtain ⟨stack₁, e₁, hrun₁, hclose₁⟩ :=
        hc.run items (.when cs₀ rs₀ :: stack) (fun _ _ _ => rfl)
      obtain ⟨stack₂, e₂, hrun₂, hclose₂⟩ :=
        hr.run items (.then (c :: cs₀) rs₀ :: stack) (fun _ _ _ => rfl)
      have hthen : (Reader.mk items stack₁ (.operator e₁)).step .then =
          some ⟨items, .then (c :: cs₀) rs₀ :: stack, .operand⟩ :=
        step_then (hclose₁ 0 (Nat.le_refl 0))
      refine ⟨stack₂, e₂, c :: cs₀, rs₀, r, ?_, ?_, ?_, ?_⟩
      · rw [run_append hrun₁, run_cons hthen]
        exact hrun₂
      · rw [hclose₂ 0 (Nat.le_refl 0)]
        rfl
      · rw [List.reverse_cons]
      · rw [List.reverse_cons]
  | .more (c := c) (r := r) hc hr hbs =>
      obtain ⟨stack₁, e₁, hrun₁, hclose₁⟩ :=
        hc.run items (.when cs₀ rs₀ :: stack) (fun _ _ _ => rfl)
      obtain ⟨stack₂, e₂, hrun₂, hclose₂⟩ :=
        hr.run items (.then (c :: cs₀) rs₀ :: stack) (fun _ _ _ => rfl)
      have hthen : (Reader.mk items stack₁ (.operator e₁)).step .then =
          some ⟨items, .then (c :: cs₀) rs₀ :: stack, .operand⟩ :=
        step_then (hclose₁ 0 (Nat.le_refl 0))
      have hwhen : (Reader.mk items stack₂ (.operator e₂)).step .when =
          some ⟨items, .when (c :: cs₀) (r :: rs₀) :: stack, .operand⟩ := by
        rw [step_end .when (hclose₂ 0 (Nat.le_refl 0))]
        rfl
      obtain ⟨stack₃, e₃, cs', rs', last, hrun₃, hclose₃, hcs, hrs⟩ :=
        hbs.run items stack (c :: cs₀) (r :: rs₀)
      refine ⟨stack₃, e₃, cs', rs', last, ?_, hclose₃, ?_, ?_⟩
      · rw [List.append_assoc, List.cons_append, run_append hrun₁]
        rw [run_cons hthen, run_append hrun₂, run_cons hwhen]
        exact hrun₃
      · rw [hcs, List.reverse_cons, List.append_assoc]
        rfl
      · rw [hrs, List.reverse_cons, List.append_assoc]
        rfl

end

/-! ## One reading -/

/-- What the grammar derives from all of the tokens is what is read. -/
theorem readExpr_of_reads {ts : List Token} {e : Expr} (h : Reads 0 ts e) :
    readExpr ts = some e := by
  obtain ⟨stack', e', hrun, hclose⟩ := h.run [] [] (fun _ _ _ => rfl)
  have hitems : readItems ts = some [(e, none)] := by
    have hfold : ts.foldlM step start = some ⟨[], stack', .operator e'⟩ := hrun
    have hc : close 0 stack' e' = ([], e) := hclose 0 (Nat.le_refl 0)
    rw [readItems, hfold, Option.bind_some]
    simp only [items?, hc]
    rfl
  rw [readExpr, hitems]

theorem Reads.unique {ts : List Token} {e e' : Expr} (h : Reads 0 ts e)
    (h' : Reads 0 ts e') : e = e' :=
  Option.some.inj ((readExpr_of_reads h).symm.trans (readExpr_of_reads h'))

end RequestLog.Sql
