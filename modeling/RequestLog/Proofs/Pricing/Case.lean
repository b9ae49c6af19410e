import RequestLog.Pricing.Case
import RequestLog.Proofs.Filter.Emit
import RequestLog.Proofs.Sql.Placeholder

/-!
# What rendering a price table does to the parameters

Like a condition, a price table comes apart into an expression that depends on the
number of arguments there are already (`PriceTable.expr`) and the values that are
bound, those of the matchers in the order of the rules (`PriceTable.operands`).
-/

namespace RequestLog.Pricing

open Sql

/-- The conditions of rules behind the first `n` arguments. -/
def ruleConditions (b : Backend) (model : Expr) : Nat → List Rule → List Expr
  | _, [] => []
  | n, r :: rest =>
      r.matcher.operator.expr b model (.argument (n + 1)) ::
        ruleConditions b model (n + 1) rest

namespace PriceTable

def operands (t : PriceTable) : List Scalar := t.rules.map fun r => .text r.matcher.value

/-- The cost of a request behind the first `n` arguments. -/
def expr (t : PriceTable) (b : Backend) (model prompt completion : Expr) (n : Nat) :
    Expr :=
  let cost (f : Facts) := f.expr b prompt completion
  if t.rules.isEmpty then cost t.fallback
  else
    .caseWhen (ruleConditions b model n t.rules) (t.rules.map (cost ·.facts))
      (cost t.fallback)

end PriceTable

theorem conditions_eq (model : Expr) (rules : List Rule) (p : Params) :
    conditions model rules p =
      (ruleConditions p.backend model p.size rules,
        p.extend (rules.map fun r => .text r.matcher.value)) := by
  induction rules generalizing p with
  | nil => rw [conditions, List.map_nil, Params.extend_nil]; rfl
  | cons r rest ih =>
      rw [conditions, Params.push_eq]
      simp only [ih, Params.extend_extend, Params.extend_backend, Params.extend_size]
      rfl

theorem PriceTable.caseExpr_eq (t : PriceTable) (model prompt completion : Expr)
    (p : Params) :
    t.caseExpr model prompt completion p =
      (t.expr p.backend model prompt completion p.size, p.extend t.operands) := by
  rw [caseExpr, expr, operands, conditions_eq]
  cases t.rules with
  | nil => simp [Params.extend_nil]
  | cons r rest => rfl

/-! ## Arguments -/

section

variable {b : Backend} {model prompt completion : Expr}

attribute [local simp] Expr.arguments Expr.argumentLists Expr.names Expr.namesOf
  Expr.text Expr.texts

theorem Facts.arguments_expr (f : Facts) (hp : prompt.arguments = [])
    (hc : completion.arguments = []) : (f.expr b prompt completion).arguments = [] := by
  cases b <;> simp [expr, Backend.toDouble, Backend.nonNegative, Backend.orZero, hp, hc]

theorem MatchOperator.arguments_expr (op : MatchOperator) (hm : model.arguments = [])
    (e : Expr) : (op.expr b model e).arguments = e.arguments := by
  cases op <;> cases b <;> simp [expr, Backend.startsWith, Backend.contains,
    Backend.place, hm]

/-- The arguments of a case are those of its conditions, one for each rule. -/
theorem interleave_conditions (hm : model.arguments = []) (cost : Rule → Expr)
    (hcost : ∀ r, (cost r).arguments = []) (n : Nat) (rules : List Rule) :
    interleave (Expr.argumentLists (ruleConditions b model n rules))
      (Expr.argumentLists (rules.map cost)) = List.range' (n + 1) rules.length := by
  induction rules generalizing n with
  | nil => rfl
  | cons r rest ih =>
      rw [ruleConditions, List.map_cons, Expr.argumentLists, Expr.argumentLists,
        interleave, ih, hcost, MatchOperator.arguments_expr _ hm]
      simp [List.range'_succ]

theorem PriceTable.arguments_expr (t : PriceTable) (hm : model.arguments = [])
    (hp : prompt.arguments = []) (hc : completion.arguments = []) (n : Nat) :
    (t.expr b model prompt completion n).arguments =
      List.range' (n + 1) t.operands.length := by
  have hcost := fun f : Facts => f.arguments_expr (b := b) hp hc
  rw [expr, operands, List.length_map]
  cases hrules : t.rules with
  | nil => exact hcost t.fallback
  | cons r rest =>
      have hall := interleave_conditions (b := b) hm
        (fun r => r.facts.expr b prompt completion) (fun r => hcost r.facts) n (r :: rest)
      simp only [List.isEmpty_cons, Bool.false_eq_true, if_false, Expr.arguments, hcost,
        List.append_nil]
      exact hall

/-! ## Names -/

theorem Facts.names_expr (f : Facts) (hp : prompt.names.all Sql.free = true)
    (hc : completion.names.all Sql.free = true) :
    (f.expr b prompt completion).names.all Sql.free = true := by
  cases b <;> simp +decide [expr, Backend.toDouble, Backend.nonNegative,
    Backend.orZero, hp, hc]

theorem MatchOperator.names_expr (op : MatchOperator)
    (hm : model.names.all Sql.free = true) (i : Nat) :
    (op.expr b model (.argument i)).names.all Sql.free = true := by
  cases op <;> cases b <;> simp +decide [expr, Backend.startsWith, Backend.contains,
    Backend.place, hm]

theorem names_ruleConditions (hm : model.names.all Sql.free = true) (n : Nat)
    (rules : List Rule) :
    (Expr.namesOf (ruleConditions b model n rules)).all Sql.free = true := by
  induction rules generalizing n with
  | nil => rfl
  | cons r rest ih =>
      rw [ruleConditions, Expr.namesOf, List.all_append, ih,
        MatchOperator.names_expr _ hm]
      rfl

theorem PriceTable.names_expr (t : PriceTable) (hm : model.names.all Sql.free = true)
    (hp : prompt.names.all Sql.free = true)
    (hc : completion.names.all Sql.free = true) (n : Nat) :
    (t.expr b model prompt completion n).names.all Sql.free = true := by
  have hcost := fun f : Facts => f.names_expr (b := b) hp hc
  have hcosts : ∀ rules : List Rule, (Expr.namesOf (rules.map fun r =>
      r.facts.expr b prompt completion)).all Sql.free = true := by
    intro rules
    rw [Expr.namesOf_eq_flatMap, List.all_flatMap, List.all_map, List.all_eq_true]
    exact fun r _ => hcost r.facts
  rw [expr]
  split
  · exact hcost t.fallback
  · rw [Expr.names, List.all_append, List.all_append, names_ruleConditions hm, hcosts,
      hcost]
    rfl

/-! ## Values in their places -/

/-- The cost with the values of the matchers in the places of their arguments. -/
def PriceTable.inlined (t : PriceTable) (b : Backend) (render : Scalar → String)
    (model prompt completion : Expr) : Expr :=
  let cost (f : Facts) := f.expr b prompt completion
  if t.rules.isEmpty then cost t.fallback
  else
    .caseWhen
      (t.rules.map fun r =>
        r.matcher.operator.expr b model (.verbatim (render (.text r.matcher.value))))
      (t.rules.map (cost ·.facts)) (cost t.fallback)

theorem Facts.fixed_expr (f : Facts) (hp : prompt.Fixed) (hc : completion.Fixed) :
    (f.expr b prompt completion).Fixed := by
  intro g g'
  cases b <;> simp [expr, Backend.toDouble, Backend.nonNegative, Backend.orZero,
    hp g g', hc g g']

theorem MatchOperator.text_expr (op : MatchOperator) (hm : model.Fixed)
    {g g' : Nat → String} {e e' : Expr} (h : e.text g = e'.text g') :
    (op.expr b model e).text g = (op.expr b model e').text g' := by
  cases op <;> cases b <;> simp [expr, Backend.startsWith, Backend.contains,
    Backend.place, hm g g', h]

/-- The values that were bound behind `before` stand where their rules want them. -/
theorem texts_ruleConditions (hm : model.Fixed) (render : Scalar → String)
    (g : Nat → String) (rules : List Rule) (before after : List Scalar) :
    Expr.texts (inPlace (before ++ rules.map (fun r => .text r.matcher.value) ++ after)
        render) (ruleConditions b model before.length rules) =
      Expr.texts g (rules.map fun r =>
        r.matcher.operator.expr b model (.verbatim (render (.text r.matcher.value)))) := by
  induction rules generalizing before with
  | nil => rfl
  | cons r rest ih =>
      have hrest := ih (before ++ [.text r.matcher.value])
      rw [List.length_append, List.append_assoc before] at hrest
      rw [ruleConditions, List.map_cons, List.map_cons, Expr.texts, Expr.texts]
      refine congrArg₂ List.cons (MatchOperator.text_expr _ hm ?_) hrest
      rw [Expr.text, Expr.text]
      exact inPlace_succ (by simp)

theorem PriceTable.text_inlined (t : PriceTable) (hm : model.Fixed) (hp : prompt.Fixed)
    (hc : completion.Fixed) (render : Scalar → String) (g : Nat → String)
    (before after : List Scalar) :
    (t.expr b model prompt completion before.length).text
        (inPlace (before ++ t.operands ++ after) render) =
      (t.inlined b render model prompt completion).text g := by
  have hcost := fun f : Facts => f.fixed_expr (b := b) hp hc
  rw [expr, inlined, operands]
  split
  · exact hcost t.fallback _ _
  · rw [Expr.text, Expr.text, texts_ruleConditions hm render g, hcost t.fallback _ g]
    have hcosts (g' : Nat → String) :
        Expr.texts g' (t.rules.map fun r => r.facts.expr b prompt completion) =
          Expr.texts g (t.rules.map fun r => r.facts.expr b prompt completion) := by
      rw [Expr.texts_eq_map, Expr.texts_eq_map, List.map_map, List.map_map]
      exact List.map_congr_left fun r _ => hcost r.facts g' g
    rw [hcosts]

end

end RequestLog.Pricing
