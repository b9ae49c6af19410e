import RequestLog.Metric.Query
import RequestLog.Proofs.Filter.Compile
import RequestLog.Proofs.Pricing.Case

/-!
# Values do not reach the text

Take two filters that differ in nothing but the values they compare with, and these
only within their types: a text for a text, an instant for an instant. Compiled side
by side they take the same way. Either both fail, with the same complaint, since a
complaint names fields, operators and types but no value; or both succeed with the
same text, and the values are found among the arguments and nowhere else. So a value
cannot be chosen so that it changes what is asked.

The proof relates two runs step by step (`SameOutcome`). Whatever comes after two
related outcomes is related if it is related for related results
(`SameOutcome.bind`), so every function of the compiler needs one lemma about itself:
alike in, alike out.
-/

namespace RequestLog

open Sql Pricing

/-! ## What may differ -/

/-- Two values of the same constructor. -/
inductive Scalar.SameForm : Scalar → Scalar → Prop
  | null : SameForm .null .null
  | bool (x y : Bool) : SameForm (.bool x) (.bool y)
  | int (i j : Int) : SameForm (.int i) (.int j)
  | float (x y : Float) : SameForm (.float x) (.float y)
  | text (s t : String) : SameForm (.text s) (.text t)
  | timestamp (t u : Instant) : SameForm (.timestamp t) (.timestamp u)
  | list (vs ws : List Scalar) : SameForm (.list vs) (.list ws)

def Scalar.items : Scalar → List Scalar
  | .list vs => vs
  | _ => []

/-- Operands of the same constructor, lists with items of the same constructors. -/
structure Scalar.Alike (v w : Scalar) : Prop where
  form : v.SameForm w
  items : List.Forall₂ SameForm v.items w.items

/-- Filters of the same shape over the same columns and with the same operators. -/
inductive Filter.Alike : Filter → Filter → Prop
  | all : Alike .all .all
  | leaf (t : Table) (c : Column) (op : Operator) {v w : Scalar} :
      v.Alike w → Alike (.leaf ⟨t, c, op, v⟩) (.leaf ⟨t, c, op, w⟩)
  | branch (op : Connective) {left left' right right' : Filter} :
      Alike left left' → Alike right right' →
      Alike (.branch left right op) (.branch left' right' op)

/-- Alike filters over the same table, each for a tenant of its own. -/
structure ScopedFilter.Alike (s s' : ScopedFilter) : Prop where
  source : s.source = s'.source
  filter : s.filter.Alike s'.filter

/-- Price tables that differ in the values of their matchers alone. -/
structure Pricing.PriceTable.Alike (t u : PriceTable) : Prop where
  rules : List.Forall₂
    (fun r r' => r.matcher.operator = r'.matcher.operator ∧ r.facts = r'.facts)
    t.rules u.rules
  fallback : t.fallback = u.fallback

structure Params.Alike (p p' : Params) : Prop where
  backend : p.backend = p'.backend
  values : List.Forall₂ Scalar.SameForm p.values.toList p'.values.toList

structure Query.Alike (q q' : Query) : Prop where
  backend : q.backend = q'.backend
  text : q.text = q'.text
  args : List.Forall₂ Scalar.SameForm q.args q'.args

/-- What two runs come to: the same failure, or two results that are related. -/
inductive SameOutcome {α : Type} (R : α → α → Prop) :
    Except FilterError α → Except FilterError α → Prop
  | error (e : FilterError) : SameOutcome R (.error e) (.error e)
  | ok {a a' : α} : R a a' → SameOutcome R (.ok a) (.ok a')

/-- The same part of a query, with parameters that are alike. -/
def SamePart {α : Type} (x y : α × Params) : Prop := x.1 = y.1 ∧ x.2.Alike y.2

namespace SameOutcome

variable {α β : Type} {R : α → α → Prop} {S : β → β → Prop}
  {x x' : Except FilterError α}

theorem bind {f f' : α → Except FilterError β} (h : SameOutcome R x x')
    (hf : ∀ a a', R a a' → SameOutcome S (f a) (f' a')) :
    SameOutcome S (x >>= f) (x' >>= f') := by
  cases h with
  | error e => exact .error e
  | ok ha => exact hf _ _ ha

theorem map {f f' : α → β} (h : SameOutcome R x x')
    (hf : ∀ a a', R a a' → S (f a) (f' a')) : SameOutcome S (x.map f) (x'.map f') := by
  cases h with
  | error e => exact .error e
  | ok ha => exact .ok (hf _ _ ha)

theorem refl (hR : ∀ a, R a a) (x : Except FilterError α) : SameOutcome R x x := by
  cases x with
  | error e => exact .error e
  | ok a => exact .ok (hR a)

end SameOutcome

/-! ## Checking -/

namespace Scalar.SameForm

variable {v w : Scalar}

theorem refl (v : Scalar) : v.SameForm v := by
  cases v <;> constructor

theorem typeName_eq (h : v.SameForm w) : v.typeName = w.typeName := by
  cases h <;> rfl

theorem isNull_eq (h : v.SameForm w) : v.isNull = w.isNull := by
  cases h <;> rfl

theorem encode (h : v.SameForm w) (b : Backend) : (b.encode v).SameForm (b.encode w) := by
  cases h <;> cases b <;> constructor

theorem typeMismatch {α : Type} {R : α → α → Prop} (h : v.SameForm w)
    (name expected : String) :
    SameOutcome R (typeMismatch name expected v) (typeMismatch name expected w) := by
  rw [RequestLog.typeMismatch, RequestLog.typeMismatch, h.typeName_eq]
  exact .error _

theorem operand (h : v.SameForm w) (kind : Kind) (name : String) :
    SameOutcome SameForm (kind.operand name v) (kind.operand name w) := by
  cases h <;> cases kind <;>
    first | exact .error _ | exact .ok (by constructor)

theorem operands {vs ws : List Scalar} (h : List.Forall₂ SameForm vs ws) (kind : Kind)
    (name : String) :
    SameOutcome (List.Forall₂ SameForm) (vs.mapM (kind.operand name))
      (ws.mapM (kind.operand name)) := by
  induction h with
  | nil => exact .ok .nil
  | cons hv _ ih =>
      rw [List.mapM_cons, List.mapM_cons]
      exact (hv.operand kind name).bind fun _ _ hv => ih.bind fun _ _ hvs =>
        .ok (.cons hv hvs)

end Scalar.SameForm

open Scalar (SameForm)

inductive Test.Alike : Test → Test → Prop
  | isNull (negated : Bool) : Alike (.isNull negated) (.isNull negated)
  | compare (op : Comparison) {v w : Scalar} :
      v.SameForm w → Alike (.compare op v) (.compare op w)
  | like {v w : Scalar} : v.SameForm w → Alike (.like v) (.like w)
  | contains {v w : Scalar} : v.SameForm w → Alike (.contains v) (.contains w)
  | oneOf {vs ws : List Scalar} :
      List.Forall₂ SameForm vs ws → Alike (.oneOf vs) (.oneOf ws)

inductive Condition.Alike : Condition → Condition → Prop
  | always : Alike .always .always
  | test (field : Field) {t t' : Test} :
      t.Alike t' → Alike (.test field t) (.test field t')
  | junction (op : Junction) {left left' right right' : Condition} :
      Alike left left' → Alike right right' →
      Alike (.junction op left right) (.junction op left' right')

theorem Operator.nullTest_alike {name : String} {v w : Scalar} (h : v.SameForm w)
    (negated : Bool) :
    SameOutcome Test.Alike (test.nullTest name v negated)
      (test.nullTest name w negated) := by
  rw [test.nullTest, test.nullTest, h.isNull_eq]
  split
  · exact .ok (.isNull negated)
  · exact h.typeMismatch name "null"

theorem Operator.test_alike {v w : Scalar} (h : v.Alike w) (op : Operator)
    (name : String) (kind : Kind) :
    SameOutcome Test.Alike (op.test name kind v) (op.test name kind w) := by
  have hoperand := h.form.operand kind name
  cases op with
  | isNull => exact nullTest_alike h.form false
  | isNotNull => exact nullTest_alike h.form true
  | «in» =>
      obtain ⟨hform, hitems⟩ := h
      cases hform with
      | list vs ws => exact (SameForm.operands hitems kind name).map fun _ _ => .oneOf
      | null | bool | int | float | text | timestamp => exact .error _
  | contains => exact hoperand.map fun _ _ => .contains
  | like => exact hoperand.map fun _ _ => .like
  | equals | notEquals | greaterThan | lessThan | greaterOrEqual | lessOrEqual =>
      exact hoperand.map fun _ _ => .compare _

theorem Leaf.check_alike {v w : Scalar} (h : v.Alike w) (family : Family)
    (source : Source) (t : Table) (c : Column) (op : Operator) :
    SameOutcome Condition.Alike (Leaf.check family source ⟨t, c, op, v⟩)
      (Leaf.check family source ⟨t, c, op, w⟩) := by
  have hfield : SameOutcome Eq (Leaf.field family source ⟨t, c, op, v⟩)
      (Leaf.field family source ⟨t, c, op, w⟩) := .refl (fun _ => rfl) _
  refine hfield.bind fun field _ heq => ?_
  subst heq
  change SameOutcome _ (if op.supports field.kind then _ else _)
    (if op.supports field.kind then _ else _)
  split
  · exact (op.test_alike h (fieldName t c) field.kind).bind fun _ _ ht =>
      .ok (.test field ht)
  · exact .error _

theorem Filter.check_alike {f f' : Filter} (h : f.Alike f') (family : Family)
    (source : Source) :
    SameOutcome Condition.Alike (f.check family source) (f'.check family source) := by
  induction h with
  | all => exact .ok .always
  | leaf t c op hv => exact Leaf.check_alike hv family source t c op
  | branch op _ _ ihl ihr =>
      exact ihl.bind fun _ _ hl => ihr.bind fun _ _ hr => .ok (.junction op.junction hl hr)

theorem ScopedFilter.tree_alike {s s' : ScopedFilter} (h : s.Alike s') :
    s.tree.Alike s'.tree := by
  rw [tree, tree, ownRows, ownRows, h.source]
  exact .branch .and (.leaf _ _ _ ⟨.text _ _, .nil⟩) h.filter

theorem ScopedFilter.relation_alike {s s' : ScopedFilter} (h : s.Alike s')
    (family : Family) : s.relation family = s'.relation family := by
  rw [relation, relation, h.source]

theorem ScopedFilter.check_alike {s s' : ScopedFilter} (h : s.Alike s')
    (family : Family) :
    SameOutcome Condition.Alike (s.check family) (s'.check family) := by
  rw [check, check, relation_alike h]
  refine (SameOutcome.refl (R := Eq) (fun _ => rfl) (s'.relation family)).bind ?_
  rintro source _ rfl
  exact Filter.check_alike (tree_alike h) family source

/-! ## Texts and arguments -/

theorem Test.Alike.expr_eq {t t' : Test} (h : t.Alike t') (b : Backend) (field : Field)
    (n : Nat) : t.expr b field n = t'.expr b field n := by
  cases h with
  | isNull | compare | like | contains => rfl
  | oneOf hvs =>
      cases hvs with
      | nil => rfl
      | cons _ hrest => rw [Test.expr, Test.expr, List.length_cons, hrest.length_eq]; rfl

theorem Test.Alike.operands {t t' : Test} (h : t.Alike t') :
    List.Forall₂ SameForm t.operands t'.operands := by
  cases h with
  | isNull => exact .nil
  | compare _ hv | like hv | contains hv => exact .cons hv .nil
  | oneOf hvs => exact hvs

theorem Condition.Alike.operands {c c' : Condition} (h : c.Alike c') :
    List.Forall₂ SameForm c.operands c'.operands := by
  induction h with
  | always => exact .nil
  | test _ ht => exact ht.operands
  | junction _ _ _ ihl ihr => exact List.rel_append ihl ihr

/-- The second side begins where the first one ends, at the same place in both. -/
theorem Condition.Alike.expr_eq {c c' : Condition} (h : c.Alike c') (b : Backend)
    (n : Nat) : c.expr b n = c'.expr b n := by
  induction h generalizing n with
  | always => rfl
  | test field ht => exact ht.expr_eq b field n
  | junction _ hl _ ihl ihr =>
      rw [Condition.expr, Condition.expr, ihl, ihr, hl.operands.length_eq]

theorem Params.Alike.size_eq {p p' : Params} (h : p.Alike p') : p.size = p'.size :=
  h.values.length_eq

theorem Params.Alike.extend {p p' : Params} {vs ws : List Scalar} (h : p.Alike p')
    (hvs : List.Forall₂ SameForm vs ws) : (p.extend vs).Alike (p'.extend ws) where
  backend := h.backend
  values := by
    rw [Params.extend_toList, Params.extend_toList]
    exact List.rel_append h.values hvs

theorem Params.Alike.finish {p p' : Params} (h : p.Alike p') (text : String) :
    (p.finish text).Alike (p'.finish text) :=
  ⟨h.backend, rfl, h.values⟩

namespace Backend

variable {b : Backend} {s s' : ScopedFilter} {p p' : Params}

theorem compileInto_alike (hs : s.Alike s') (hp : p.Alike p') :
    SameOutcome SamePart (b.compileInto s p) (b.compileInto s' p') := by
  by_cases hb : p.backend = b
  · rw [compileInto_eq hb, compileInto_eq (hp.backend.symm.trans hb), ← hp.size_eq]
    refine (ScopedFilter.check_alike hs b.family).map fun c c' hc => ⟨?_, ?_⟩
    · exact congrArg b.textOf (hc.expr_eq b p.size)
    · refine hp.extend ?_
      rw [List.forall₂_map_left_iff, List.forall₂_map_right_iff]
      exact hc.operands.imp fun _ _ hv => hv.encode b
  · have hb' : p'.backend ≠ b := hp.backend ▸ hb
    rw [compileInto, compileInto, addCondition_mismatch hb, addCondition_mismatch hb',
      hp.backend]
    exact .error _

theorem compile_alike (h : s.Alike s') (b : Backend) :
    SameOutcome Query.Alike (b.compile s) (b.compile s') :=
  (compileInto_alike (p := ⟨b, #[]⟩) h ⟨rfl, .nil⟩).bind fun _ _ hpart =>
    .ok (hpart.1 ▸ hpart.2.finish _)

/-- Queries differ in no more than what they select and what they ask for. -/
theorem select_alike {items items' : Selection} (h : s.Alike s')
    (hitems : SameOutcome SamePart (items ⟨b, #[]⟩) (items' ⟨b, #[]⟩)) :
    SameOutcome Query.Alike (b.select s items) (b.select s' items') := by
  rw [select, select, ScopedFilter.relation_alike h]
  refine (SameOutcome.refl (R := Eq) (fun _ => rfl) (s'.relation b.family)).bind ?_
  rintro source _ rfl
  refine hitems.bind ?_
  rintro ⟨text, p⟩ ⟨_, p'⟩ ⟨rfl, hp⟩
  refine (compileInto_alike h hp).bind ?_
  rintro ⟨condition, p⟩ ⟨_, p'⟩ ⟨rfl, hp⟩
  exact .ok (hp.finish _)

end Backend

/-! ## Prices and metrics -/

namespace Pricing

theorem ruleConditions_alike {rules rules' : List Rule}
    (h : List.Forall₂
      (fun r r' => r.matcher.operator = r'.matcher.operator ∧ r.facts = r'.facts)
      rules rules') (b : Backend) (model : Expr) (n : Nat) :
    ruleConditions b model n rules = ruleConditions b model n rules' := by
  induction h generalizing n with
  | nil => rfl
  | cons hr _ ih => rw [ruleConditions, ruleConditions, ih, hr.1]

theorem PriceTable.Alike.expr_eq {t u : PriceTable} (h : t.Alike u) (b : Backend)
    (model prompt completion : Expr) (n : Nat) :
    t.expr b model prompt completion n = u.expr b model prompt completion n := by
  have hcosts : t.rules.map (fun r => r.facts.expr b prompt completion) =
      u.rules.map (fun r => r.facts.expr b prompt completion) := by
    rw [← List.forall₂_eq_eq_eq, List.forall₂_map_left_iff, List.forall₂_map_right_iff]
    exact h.rules.imp fun r r' hr => congrArg (Facts.expr · b prompt completion) hr.2
  have hempty : t.rules.isEmpty = u.rules.isEmpty := by
    rw [Bool.eq_iff_iff, List.isEmpty_iff_length_eq_zero, List.isEmpty_iff_length_eq_zero,
      h.rules.length_eq]
  rw [expr, expr, ruleConditions_alike h.rules, hcosts, hempty, h.fallback]

theorem PriceTable.Alike.operands {t u : PriceTable} (h : t.Alike u) :
    List.Forall₂ SameForm t.operands u.operands := by
  rw [PriceTable.operands, PriceTable.operands, List.forall₂_map_left_iff,
    List.forall₂_map_right_iff]
  exact h.rules.imp fun _ _ _ => .text _ _

end Pricing

namespace Metric

variable {prices prices' : PriceTable} {p p' : Params}

theorem expr_alike (h : prices.Alike prices') (hp : p.Alike p') (m : Metric)
    (b : Backend) :
    SameOutcome SamePart (m.expr prices b p) (m.expr prices' b p') := by
  have hcolumn := fun c =>
    SameOutcome.refl (R := Eq) (fun _ => rfl) (columnExpr m.table b c)
  cases m with
  | totalRequests => exact .ok ⟨rfl, hp⟩
  | activeUsers =>
      refine (hcolumn .userId).bind ?_
      rintro user _ rfl
      exact .ok ⟨rfl, hp⟩
  | averageLatency =>
      refine (hcolumn .latency).bind ?_
      rintro latency _ rfl
      exact .ok ⟨rfl, hp⟩
  | totalCost =>
      refine (hcolumn .model).bind ?_
      rintro model _ rfl
      refine (hcolumn .promptTokens).bind ?_
      rintro prompt _ rfl
      refine (hcolumn .completionTokens).bind ?_
      rintro completion _ rfl
      rw [PriceTable.caseExpr_eq, PriceTable.caseExpr_eq, h.expr_eq, hp.backend,
        hp.size_eq]
      exact .ok ⟨rfl, hp.extend h.operands⟩

theorem query_alike {body body' : RequestBody} (h : prices.Alike prices')
    (hbody : body.filter.Alike body'.filter) (m : Metric) (b : Backend)
    (tenant tenant' : Tenant) :
    SameOutcome Query.Alike (m.query prices b tenant body)
      (m.query prices' b tenant' body') := by
  have hbound := fun op (t u : Instant) => Filter.Alike.leaf m.table .createdAt op
    (v := .timestamp t) (w := .timestamp u) ⟨.timestamp t u, .nil⟩
  refine Backend.select_alike
    ⟨rfl, .branch .and (.branch .and (hbound _ _ _) (hbound _ _ _)) hbody⟩ ?_
  refine (expr_alike h ⟨rfl, .nil⟩ m b).bind ?_
  rintro ⟨e, p⟩ ⟨_, p'⟩ ⟨rfl, hp⟩
  exact .ok ⟨rfl, hp⟩

end Metric

/-! ## The text is the same for all values -/

/-- Alike filters, requests and price tables give the same text or the same failure,
whoever asks, and arguments of the same constructors. -/
theorem text_independent_of_values (b : Backend) :
    (∀ s s' : ScopedFilter, s.Alike s' →
      SameOutcome Query.Alike (b.compile s) (b.compile s')) ∧
    (∀ (m : Metric) (prices prices' : PriceTable) (tenant tenant' : Tenant)
      (body body' : RequestBody), prices.Alike prices' → body.filter.Alike body'.filter →
      SameOutcome Query.Alike (m.query prices b tenant body)
        (m.query prices' b tenant' body')) ∧
    (∀ (prices prices' : PriceTable) (model prompt completion : Expr) (p p' : Params),
      prices.Alike prices' → p.backend = b → p'.backend = b → p.size = p'.size →
      b.textOf (prices.caseExpr model prompt completion p).1 =
        b.textOf (prices'.caseExpr model prompt completion p').1) := by
  refine ⟨fun s s' h => Backend.compile_alike h b,
    fun m prices prices' tenant tenant' body body' h hbody =>
      Metric.query_alike h hbody m b tenant tenant',
    fun prices prices' model prompt completion p p' h hp hp' hsize => ?_⟩
  rw [PriceTable.caseExpr_eq, PriceTable.caseExpr_eq, hp, hp', hsize, h.expr_eq]

/-- The sample with values that would get out of their places if they were text. -/
def hostileScope : ScopedFilter where
  source := .requestResponseLog
  tenant := ⟨"org_2' OR '1' = '1", by decide⟩
  filter :=
    ((FilterOf.leaf ⟨.requestResponseLog, .model, .contains, .text "') OR (TRUE"⟩).or
      (.leaf ⟨.requestResponseLog, .latency, .in, .list [.int (-1), .int 0]⟩)).and
        (.leaf ⟨.requestResponseLog, .createdAt, .lessThan, .timestamp ⟨0, 0⟩⟩)

theorem sampleScope_alike_hostileScope : sampleScope.Alike hostileScope where
  source := rfl
  filter := .branch .and
    (.branch .or (.leaf _ _ _ ⟨.text _ _, .nil⟩)
      (.leaf _ _ _ ⟨.list _ _, .cons (.int _ _) (.cons (.int _ _) .nil)⟩))
    (.leaf _ _ _ ⟨.timestamp _ _, .nil⟩)

theorem text_independent_of_hostile_values :
    ∃ q q', Backend.postgres.compile sampleScope = .ok q ∧
      Backend.postgres.compile hostileScope = .ok q' ∧ q.text = q'.text := by
  obtain ⟨q, hq⟩ := sampleScope_compiles .postgres
  have hsame := (text_independent_of_values .postgres).1 sampleScope hostileScope
    sampleScope_alike_hostileScope
  rw [hq] at hsame
  generalize Backend.postgres.compile hostileScope = out at hsame ⊢
  cases hsame with
  | ok h => exact ⟨q, _, hq, rfl, h.text⟩

end RequestLog
