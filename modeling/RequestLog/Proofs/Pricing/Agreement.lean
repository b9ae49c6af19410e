import RequestLog.Proofs.Pricing.Case
import RequestLog.Proofs.Pricing.Table
import RequestLog.Proofs.Relational.Engine
import RequestLog.Proofs.Sql.Columns
import RequestLog.Proofs.Sql.Computation

/-!
# Prices in a query and prices in the program

A price table is consulted twice over: the program scans its rules, and a store
evaluates the case that was rendered from them. Both take the first rule that fits a
model, and then charge by the same two prices. For the store this is a matter of its
conditions, one for each rule and in their order; of how the text of a case is read,
which is settled here up to its numbers (`PriceTable.readsAs`); and of the numbers,
which are assumed to be read as the prices that they were written from.

An absent model fits no rule, since nothing is true of an absent value.
-/

namespace RequestLog.Pricing

open Sql

/-! ## Cases as they are read -/

def Facts.readExpr (f : Facts) (b : Backend) (prompt completion : Expr) : Expr :=
  .arithmetic .add
    (.arithmetic .mul (b.toDouble (literal f.promptCost)) (b.nonNegative prompt))
    (.arithmetic .mul (b.toDouble (literal f.completionCost)) (b.nonNegative completion))

/-- The case of a table behind the first `n` arguments, its prices being literals. -/
def PriceTable.readExpr (t : PriceTable) (b : Backend) (model prompt completion : Expr)
    (n : Nat) : Expr :=
  let cost (f : Facts) := f.readExpr b prompt completion
  if t.rules.isEmpty then cost t.fallback
  else
    .caseWhen (ruleConditions b model n t.rules) (t.rules.map (cost ·.facts))
      (cost t.fallback)

/-! ### Columns of a case -/

section

variable {b : Backend} {model prompt completion : Expr}

theorem columns_literal (x : Float) : (literal x).columns = [] := by
  have hnumber (negative : Bool) (s : String) : (numberExpr negative s).columns = [] := by
    unfold numberExpr
    dsimp only
    split <;> rw [Expr.columns]
  unfold literal
  split <;> exact hnumber _ _

theorem Facts.columns_readExpr (f : Facts) :
    (f.readExpr b prompt completion).columns = prompt.columns ++ completion.columns := by
  simp [readExpr, Expr.columns, Backend.columns_toDouble, Backend.columns_nonNegative,
    columns_literal]

theorem MatchOperator.columns_expr (op : MatchOperator) (i : Nat) :
    (op.expr b model (.argument i)).columns = model.columns := by
  cases op <;> simp [expr, Expr.columns, Backend.columns_startsWith, Backend.columns_contains]

theorem columns_ruleConditions (n : Nat) (rules : List Rule) :
    Expr.columnsOf (ruleConditions b model n rules) ⊆ model.columns := by
  induction rules generalizing n with
  | nil => exact List.nil_subset _
  | cons r rest ih =>
      rw [ruleConditions, Expr.columnsOf, MatchOperator.columns_expr]
      exact List.append_subset.2 ⟨List.Subset.refl _, ih (n + 1)⟩

/-- A case names the model and the counts, and no column besides. -/
theorem PriceTable.columns_readExpr (t : PriceTable) (n : Nat) :
    (t.readExpr b model prompt completion n).columns ⊆
      model.columns ++ (prompt.columns ++ completion.columns) := by
  have hcost (f : Facts) : (f.readExpr b prompt completion).columns ⊆
      model.columns ++ (prompt.columns ++ completion.columns) := by
    rw [f.columns_readExpr]
    exact List.subset_append_right _ _
  rw [readExpr]
  split
  · exact hcost t.fallback
  · rw [Expr.columns, Expr.columnsOf_eq_flatMap (List.map ..), List.append_subset,
      List.append_subset]
    refine ⟨⟨?_, ?_⟩, hcost t.fallback⟩
    · exact List.Subset.trans (columns_ruleConditions n t.rules)
        (List.subset_append_left _ _)
    · intro c hc
      rw [List.flatMap_map] at hc
      obtain ⟨r, -, hc⟩ := List.mem_flatMap.1 hc
      exact hcost r.facts hc

end

/-! ### Operands of a case -/

/-- An expression that binds no argument and is read as another wherever it stands. -/
structure Operand (b : Backend) (e e' : Expr) : Prop where
  reads : ∀ n, ReadsAs b n e e'
  arguments : e.arguments = []

theorem Operand.column {b : Backend} {c : ColumnRef} (h : c.plain = true) :
    Operand b (.column c) (.column c) where
  reads _ := ⟨_, .primary (.operand _), yields_column b h⟩
  arguments := by rw [Expr.arguments]

section

variable {b : Backend} {n : Nat} {e e' : Expr}
variable {model prompt completion model' prompt' completion' : Expr}

theorem readsAs_argument (i : Nat) : ReadsAs b n (.argument i) (.argument i) :=
  ⟨_, .primary (.operand _), yields_argument b i⟩

theorem readsAs_natural {k : Nat} (hk : Decimal.fitsSigned 64 k = true) :
    ReadsAs b n (.integer k) (.integer k) :=
  ⟨_, .primary (.operand _), yields_natural b hk⟩

theorem readsAs_orZero (h : ReadsAs b 0 e e') :
    ReadsAs b n (Backend.orZero e) (Backend.orZero e') :=
  .call (by decide) (by decide)
    (.cons h (.cons (readsAs_natural (k := 0) (by decide)) .nil))

theorem readsAs_nonNegative (h : ReadsAs b 0 e e') :
    ReadsAs b n (b.nonNegative e) (b.nonNegative e') := by
  have hargs : List.Forall₂ (ReadsAs b 0) [Backend.orZero e, .integer 0]
      [Backend.orZero e', .integer 0] :=
    .cons (readsAs_orZero h) (.cons (readsAs_natural (k := 0) (by decide)) .nil)
  cases b <;> exact .call (by decide) (by decide) hargs

theorem Facts.isFinite_costs {f : Facts} (h : f.fault? = none) :
    f.promptCost.isFinite = true ∧ f.completionCost.isFinite = true := by
  rw [fault?] at h
  split at h
  · cases h
  · next hprompt =>
      split at h
      · cases h
      · next hcompletion =>
          simp only [chargeable, Bool.not_eq_true', Bool.not_eq_false,
            Bool.and_eq_true] at hprompt hcompletion
          exact ⟨hprompt.1, hcompletion.1⟩

theorem Facts.readsAs_expr {f : Facts} (h : f.fault? = none)
    (hp : Operand b prompt prompt') (hc : Operand b completion completion') :
    ReadsAs b 0 (f.expr b prompt completion) (f.readExpr b prompt' completion') := by
  obtain ⟨hprompt, hcompletion⟩ := f.isFinite_costs h
  have hproduct {n : Nat} {x : Float} {e e' : Expr} (hn : n ≤ 6) (hx : x.isFinite = true)
      (he : Operand b e e') :
      ReadsAs b n (.arithmetic .mul (b.toDouble (.number x)) (b.nonNegative e))
        (.arithmetic .mul (b.toDouble (literal x)) (b.nonNegative e')) :=
    .arithmetic hn (ReadsAs.literal hx).toDouble (readsAs_nonNegative (he.reads 0))
  exact .arithmetic (by decide) (hproduct (by decide) hprompt hp)
    (hproduct (by decide) hcompletion hc)

theorem MatchOperator.readsAs_expr (op : MatchOperator) (hm : Operand b model model')
    (i : Nat) :
    ReadsAs b 0 (op.expr b model (.argument i)) (op.expr b model' (.argument i)) := by
  have hargs : List.Forall₂ (ReadsAs b 0) [model, .argument i] [model', .argument i] :=
    .cons (hm.reads 0) (.cons (readsAs_argument i) .nil)
  have hplace (n : Nat) :
      ReadsAs b n (b.place model (.argument i)) (b.place model' (.argument i)) := by
    cases b <;> exact .call (by decide) (by decide) hargs
  cases op with
  | equals => exact .compare (by decide) (hm.reads _) (readsAs_argument i)
  | includes =>
      exact .compare (by decide) (hplace _) (readsAs_natural (k := 0) (by decide))
  | startsWith =>
      cases b with
      | sqlite =>
          exact .compare (by decide) (hplace _) (readsAs_natural (k := 1) (by decide))
      | postgres | duckdb | clickhouse => exact .call (by decide) (by decide) hargs

theorem readsAs_conditions (hm : Operand b model model') (cost cost' : Rule → Expr)
    {rules : List Rule} (hne : rules ≠ [])
    (hcost : ∀ r ∈ rules, ReadsAs b 0 (cost r) (cost' r)) (n : Nat) :
    ReadsAsBranches b (ruleConditions b model n rules) (rules.map cost)
      (ruleConditions b model' n rules) (rules.map cost') := by
  induction rules generalizing n with
  | nil => exact absurd rfl hne
  | cons r rest ih =>
      have hcondition := r.matcher.operator.readsAs_expr hm (n + 1)
      have hr := hcost r (List.mem_cons_self ..)
      cases rest with
      | nil => exact .one hcondition hr
      | cons r' rest =>
          have hrest := ih (List.cons_ne_nil _ _)
            (fun x hx => hcost x (List.mem_cons_of_mem _ hx)) (n + 1)
          exact .more hcondition hr hrest

/-- The text of a table's case is read as that case, but for its numbers. -/
theorem PriceTable.readsAs (t : PriceTable) (hm : Operand b model model')
    (hp : Operand b prompt prompt') (hc : Operand b completion completion') (n : Nat) :
    ReadsAs b 0 (t.expr b model prompt completion n)
      (t.readExpr b model' prompt' completion' n) := by
  have hfallback := t.fallback.readsAs_expr t.fallbackSound hp hc
  rw [expr, readExpr]
  by_cases hrules : t.rules.isEmpty = true
  · simp only [if_pos hrules]
    exact hfallback
  · simp only [if_neg hrules]
    refine .caseWhen (readsAs_conditions hm _ _ (by simpa using hrules) ?_ n) hfallback
    intro r hr
    have hsound := (Rule.fault?_eq_none_iff.1 (t.rulesSound r hr)).facts
    exact r.facts.readsAs_expr (Facts.fault?_eq_none_iff.2 hsound) hp hc

end

/-! ## Conditions and prices in a store -/

namespace PriceTable

def facts (t : PriceTable) : List Facts := t.fallback :: t.rules.map (·.facts)

/-- The rule that gives the price of a model; an absent model has none. -/
def ruleIndex (t : PriceTable) (name : Option String) : Option Nat :=
  name.bind fun s => (t.resolve s).ruleIndex

end PriceTable

section

variable {b : Backend} {E : Engine} {args : List Scalar} {counts : List Expr}
variable {model prompt completion : Expr} {name : Option String} {i j : Option Int}

end

/-- Two rules that fit the same models, and a free fallback. -/
def overlapping : PriceTable where
  rules := [⟨⟨.equals, "gpt-4"⟩, 1.5, 2.5, 8192⟩, ⟨⟨.startsWith, "gpt-4"⟩, 0.5, 2, 8192⟩,
    ⟨⟨.includes, "gpt"⟩, 0.25, 1, 4096⟩]
  fallback := .free
  rulesSound := List.forall_iff_forall_mem.1 ⟨rfl, rfl, rfl⟩
  fallbackSound := rfl

/-- A request for a model that is listed, with an unknown number of tokens answered. -/
def answered : Relational.Scope where
  args := [.text "org_1", .text "gpt-4", .text "gpt-4", .text "gpt"]
  record := [(⟨"request", "model"⟩, .text "gpt-4o"),
    (⟨"response", "prompt_tokens"⟩, .int 1000), (⟨"response", "completion_tokens"⟩, .null)]
  group := []

end RequestLog.Pricing
