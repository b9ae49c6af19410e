import RequestLog.Metric.Query
import RequestLog.Proofs.Filter.InPlace
import RequestLog.Proofs.Pricing.Case
import RequestLog.Proofs.Sql.Written

/-!
# Every argument has its value

Parts of a query are written one after the other and share their parameters. Each
part is a value of its own, the cost of a request, or a condition for any backend;
a part that fails leaves no text, and no value either. After any number of them the
placeholders of the texts, with commas between, are paired with the values
(`Step.runAll_written`): every step hands on what it needs of the next one, that the
arguments there are already are as many as the values. So are those of every query
that is put together from such parts.
-/

namespace RequestLog

open Sql Pricing

structure ColumnText where
  text : String
  isFree : free text = true

def ColumnText.expr (c : ColumnText) : Expr := .verbatim c.text

inductive Step where
  | value (v : Scalar)
  | cost (prices : PriceTable) (model prompt completion : ColumnText)
  | condition (b : Backend) (s : ScopedFilter)

namespace Step

/-- The text of a part, unless it fails, and the parameters behind it. -/
def run : Step → Params → Option String × Params
  | .value v, p =>
      let (e, q) := p.push v
      (some (p.backend.textOf e), q)
  | .cost prices model prompt completion, p =>
      let (e, q) := prices.caseExpr model.expr prompt.expr completion.expr p
      (some (p.backend.textOf e), q)
  | .condition b s, p =>
      match b.addCondition s p with
      | (.ok text, q) => (some text, q)
      | (.error _, q) => (none, q)

def runAll : List Step → Params → List String × Params
  | [], p => ([], p)
  | step :: rest, p =>
      let (text, q) := step.run p
      let (texts, q) := runAll rest q
      (text.toList ++ texts, q)

def selection (steps : List Step) : Backend.Selection := fun p =>
  let (texts, q) := runAll steps p
  .ok (commaList texts, q)

end Step

/-! ## Texts with the values in their places -/

def ScopedFilter.inlined (s : ScopedFilter) (b : Backend) (render : Scalar → String) :
    Option String :=
  match s.check b.family with
  | .ok c => some (b.textOf (c.inlined b render))
  | .error _ => none

/-- A part with its values written out; a condition for another backend is none. -/
def Step.inlined (b : Backend) (render : Scalar → String) : Step → Option String
  | .value v => some (render v)
  | .cost prices model prompt completion =>
      some (b.textOf (prices.inlined b render model.expr prompt.expr completion.expr))
  | .condition b' s => if b = b' then s.inlined b render else none

/-- A query over the source of a filter with all values written out. -/
def ScopedFilter.selectInlined (s : ScopedFilter) (b : Backend)
    (items : (Scalar → String) → Option String) (render : Scalar → String) :
    Option String := do
  let source ← Registry.source? b.family s.source
  let text ← items render
  let condition ← s.inlined b render
  return "SELECT " ++ (text ++
    (" FROM " ++ source.relation.text ++ " WHERE " ++ condition))

def Metric.inlined (m : Metric) (prices : PriceTable) (b : Backend)
    (render : Scalar → String) : Option Expr :=
  match m with
  | .totalRequests => some .countAll
  | .activeUsers => do
      let user ← Registry.resolve? b.family m.table .userId
      return .countDistinct (.column user.column)
  | .averageLatency => do
      let latency ← Registry.resolve? b.family m.table .latency
      return b.toDouble (mean b (.column latency.column))
  | .totalCost => do
      let model ← Registry.resolve? b.family m.table .model
      let prompt ← Registry.resolve? b.family m.table .promptTokens
      let completion ← Registry.resolve? b.family m.table .completionTokens
      return b.toDouble (total (prices.inlined b render (.column model.column)
        (.column prompt.column) (.column completion.column)))

def Metric.selectionInlined (m : Metric) (prices : PriceTable) (b : Backend)
    (render : Scalar → String) : Option String :=
  (m.inlined prices b render).map fun e => b.textOf e ++ (" AS " ++ m.column.name)

/-! ## Steps -/

namespace Step

variable {p : Params}

theorem written_condition {b : Backend} {s : ScopedFilter} {c : Condition} (n : Nat)
    (h : s.check b.family = .ok c) :
    Written b n (b.textOf (c.expr b n)) (c.operands.map b.encode)
      fun render => b.textOf (c.inlined b render) := by
  obtain ⟨source, -, hchecks⟩ := ScopedFilter.checks_of_check h
  refine .of_expr _ hchecks.legible.names ?_ ?_
  · rw [c.arguments_expr, List.length_map]
  · rintro render before after rfl
    exact c.text_inlined render b.argumentText before after

/-- What a step does: it leaves a text and its values, or nothing at all. -/
theorem run_written (step : Step) (p : Params) :
    (∃ text vs inlined, step.run p = (some text, p.extend vs) ∧
      (∀ render, step.inlined p.backend render = some (inlined render)) ∧
      Written p.backend p.size text vs inlined) ∨
    (step.run p = (none, p) ∧ ∀ render, step.inlined p.backend render = none) := by
  cases step with
  | value v =>
      refine .inl ⟨_, [v], fun render => render v, by rw [run, p.push_eq], fun _ => rfl,
        .of_expr _ rfl rfl ?_⟩
      rintro render before after hn
      rw [Expr.text]
      exact inPlace_succ (by simp [← hn])
  | cost prices model prompt completion =>
      refine .inl ⟨_, prices.operands, _, by rw [run, prices.caseExpr_eq], fun _ => rfl,
        .of_expr _ ?_ ?_ ?_⟩
      · exact prices.names_expr (by simp [ColumnText.expr, Expr.names, model.isFree])
          (by simp [ColumnText.expr, Expr.names, prompt.isFree])
          (by simp [ColumnText.expr, Expr.names, completion.isFree]) p.size
      · exact prices.arguments_expr rfl rfl rfl p.size
      · rintro render before after hn
        rw [← hn]
        exact prices.text_inlined (fun _ _ => rfl) (fun _ _ => rfl) (fun _ _ => rfl)
          render p.backend.argumentText before after
  | condition b s =>
      by_cases hp : p.backend = b
      · subst hp
        cases hc : s.check p.backend.family with
        | ok c =>
            refine .inl ⟨_, _, _, ?_, ?_, written_condition p.size hc⟩
            · rw [run, Backend.addCondition_ok rfl hc]
            · intro render
              rw [inlined, if_pos rfl, ScopedFilter.inlined, hc]
        | error e =>
            refine .inr ⟨?_, fun render => ?_⟩
            · rw [run, Backend.addCondition_error rfl hc]
            · rw [inlined, if_pos rfl, ScopedFilter.inlined, hc]
      · refine .inr ⟨?_, fun render => ?_⟩
        · rw [run, Backend.addCondition_mismatch hp]
        · rw [inlined, if_neg hp]

theorem runAll_written (steps : List Step) (p : Params) :
    ∃ texts vs, runAll steps p = (texts, p.extend vs) ∧
      (texts = [] → vs = []) ∧
      (∀ render, (steps.filterMap (inlined p.backend render)).length = texts.length) ∧
      Written p.backend p.size (commaList texts) vs
        fun render => commaList (steps.filterMap (inlined p.backend render)) := by
  induction steps generalizing p with
  | nil =>
      exact ⟨[], [], by rw [runAll, p.extend_nil], fun _ => rfl, fun _ => rfl,
        .of_free (by decide)⟩
  | cons step rest ih =>
      rcases step.run_written p with ⟨text, vs, inl, hrun, hinl, hwritten⟩ | ⟨hrun, hinl⟩
      · obtain ⟨texts, ws, hrest, hnone, hlength, hall⟩ := ih (p.extend vs)
        simp only [Params.extend_backend, Params.extend_size] at hlength hall
        refine ⟨text :: texts, vs ++ ws, ?_, nofun, fun render => ?_, ?_⟩
        · rw [runAll, hrun]
          simp only [hrest, Params.extend_extend]
          rfl
        · rw [List.filterMap_cons_some (hinl render), List.length_cons, hlength,
            List.length_cons]
        · simp only [List.filterMap_cons_some (hinl _)]
          exact hwritten.list hlength hnone hall
      · obtain ⟨texts, ws, hrest, hnone, hlength, hall⟩ := ih p
        refine ⟨texts, ws, ?_, hnone, fun render => ?_, ?_⟩
        · rw [runAll, hrun]
          simp only [hrest]
          rfl
        · rw [List.filterMap_cons_none (hinl render), hlength]
        · simpa only [List.filterMap_cons_none (hinl _)] using hall

end Step

/-! ## Queries -/

/-- The relations of the registry are named without placeholders. -/
theorem Registry.separates_relation {family : Family} {t : Table} {source : Source}
    (h : Registry.source? family t = some source) :
    separates (" FROM " ++ source.relation.text ++ " WHERE ") = true := by
  cases family <;> cases t <;> cases h <;> decide +kernel

theorem select_written {b : Backend} {s : ScopedFilter} {items : Backend.Selection}
    {q : Query} {vs : List Scalar} {text : String}
    {inlined : (Scalar → String) → Option String} {i : (Scalar → String) → String}
    (h : b.select s items = .ok q)
    (hitems : items ⟨b, #[]⟩ = .ok (text, Params.extend ⟨b, #[]⟩ vs))
    (hinlined : ∀ render, inlined render = some (i render))
    (hwritten : Written b 0 text vs i) :
    Paired b q.text q.args (s.selectInlined b inlined) := by
  obtain ⟨source, text', p, c, hsource, hitems', -, hc, rfl⟩ := Backend.select_ok h
  cases hitems.symm.trans hitems'
  have hcondition := Step.written_condition (0 + vs.length) hc
  have hall := ((hwritten.between (Registry.separates_relation hsource)
    hcondition).before (s := "SELECT ") (by decide)).paired
  have hsize : (Params.extend ⟨b, #[]⟩ vs).size = 0 + vs.length :=
    Params.extend_size ⟨b, #[]⟩ vs
  have hvalues : (Params.extend ⟨b, #[]⟩ vs).values.toList = vs :=
    Params.extend_toList ⟨b, #[]⟩ vs
  have hselect : s.selectInlined b inlined = fun render =>
      some ("SELECT " ++ (i render ++ (" FROM " ++ source.relation.text ++ " WHERE " ++
        b.textOf (c.inlined b render)))) := by
    funext render
    simp [ScopedFilter.selectInlined, ScopedFilter.inlined, hsource, hinlined, hc]
  rw [hselect, hvalues, hsize]
  simp only [String.append_assoc] at hall ⊢
  exact hall

theorem Metric.columnExpr_ok {t : Table} {b : Backend} {c : Column} {e : Expr}
    (h : columnExpr t b c = .ok e) :
    ∃ field, Registry.resolve? b.family t c = some field ∧
      e = .column field.column := by
  rw [columnExpr] at h
  split at h
  · next field hfield => cases h; exact ⟨field, hfield, rfl⟩
  · cases h

namespace Metric

/-! ### Sums and averages around an expression -/

section

variable {b : Backend} {e e' : Expr}

attribute [local simp] Expr.arguments Expr.argumentLists Expr.names Expr.namesOf
  Expr.text Expr.texts

theorem arguments_total : (b.toDouble (total e)).arguments = e.arguments := by
  cases b <;> simp [total, Backend.toDouble, Backend.orZero]

theorem names_total (h : e.names.all free = true) :
    (b.toDouble (total e)).names.all free = true := by
  cases b <;> simp +decide [total, Backend.toDouble, Backend.orZero, h]

theorem text_total {g g' : Nat → String} (h : e.text g = e'.text g') :
    (b.toDouble (total e)).text g = (b.toDouble (total e')).text g' := by
  cases b <;> simp [total, Backend.toDouble, Backend.orZero, h]

theorem arguments_mean : (b.toDouble (mean b e)).arguments = e.arguments := by
  cases b <;> simp [mean, total, Backend.toDouble, Backend.orZero, interleave]

theorem names_mean (h : e.names.all free = true) :
    (b.toDouble (mean b e)).names.all free = true := by
  cases b <;> simp +decide [mean, total, Backend.toDouble, Backend.orZero, h]

theorem text_mean {g g' : Nat → String} (h : e.text g = e'.text g') :
    (b.toDouble (mean b e)).text g = (b.toDouble (mean b e')).text g' := by
  cases b <;> simp [mean, total, Backend.toDouble, Backend.orZero, h]

end

/-- The cost of all requests, its prices bound behind `n` values. -/
theorem total_written (prices : PriceTable) {b : Backend}
    {model prompt completion : Field} (hm : model.column.plain = true)
    (hp : prompt.column.plain = true) (hc : completion.column.plain = true) (n : Nat) :
    Written b n
      (b.textOf (b.toDouble (total (prices.expr b (.column model.column)
        (.column prompt.column) (.column completion.column) n))))
      prices.operands
      fun render => b.textOf (b.toDouble (total (prices.inlined b render
        (.column model.column) (.column prompt.column) (.column completion.column)))) := by
  refine .of_expr _ ?_ ?_ ?_
  · exact names_total (prices.names_expr (free_column hm) (free_column hp)
      (free_column hc) n)
  · rw [arguments_total]
    exact prices.arguments_expr rfl rfl rfl n
  · rintro render before after rfl
    exact text_total (prices.text_inlined (fun _ _ => rfl) (fun _ _ => rfl)
      (fun _ _ => rfl) render b.argumentText before after)

theorem expr_written {m : Metric} {prices : PriceTable} {b : Backend}
    {p q : Params} {e : Expr} (hp : p.backend = b) (h : m.expr prices b p = .ok (e, q)) :
    ∃ vs, ∃ i : (Scalar → String) → Expr, q = p.extend vs ∧
      (∀ render, m.inlined prices b render = some (i render)) ∧
      Written b p.size (b.textOf e) vs fun render => b.textOf (i render) := by
  cases m with
  | totalRequests =>
      cases h
      exact ⟨[], fun _ => .countAll, p.extend_nil.symm, fun _ => rfl,
        .of_fixed rfl rfl fun _ _ => rfl⟩
  | activeUsers =>
      obtain ⟨user, huser, h⟩ := ok_of_bind h
      cases h
      obtain ⟨field, hfield, rfl⟩ := columnExpr_ok huser
      have hnames := free_column (Registry.plain_of_resolve hfield)
      refine ⟨[], fun _ => .countDistinct (.column field.column), p.extend_nil.symm,
        fun _ => ?_, .of_fixed hnames rfl fun _ _ => rfl⟩
      rw [inlined, hfield]
      rfl
  | averageLatency =>
      obtain ⟨latency, hlatency, h⟩ := ok_of_bind h
      cases h
      obtain ⟨field, hfield, rfl⟩ := columnExpr_ok hlatency
      have hnames := free_column (Registry.plain_of_resolve hfield)
      refine ⟨[], fun _ => b.toDouble (mean b (.column field.column)), p.extend_nil.symm,
        fun _ => ?_, .of_fixed (names_mean hnames) arguments_mean fun _ _ => text_mean rfl⟩
      rw [inlined, hfield]
      rfl
  | totalCost =>
      obtain ⟨model, hmodel, h⟩ := ok_of_bind h
      obtain ⟨prompt, hprompt, h⟩ := ok_of_bind h
      obtain ⟨completion, hcompletion, h⟩ := ok_of_bind h
      obtain ⟨fm, hfm, rfl⟩ := columnExpr_ok hmodel
      obtain ⟨fp, hfp, rfl⟩ := columnExpr_ok hprompt
      obtain ⟨fc, hfc, rfl⟩ := columnExpr_ok hcompletion
      rw [prices.caseExpr_eq] at h
      cases h
      subst hp
      refine ⟨prices.operands, fun render => p.backend.toDouble (total (prices.inlined
        p.backend render (.column fm.column) (.column fp.column) (.column fc.column))),
        rfl, fun render => ?_, total_written prices (Registry.plain_of_resolve hfm)
          (Registry.plain_of_resolve hfp) (Registry.plain_of_resolve hfc) p.size⟩
      rw [inlined, hfm, hfp, hfc]
      rfl

theorem query_paired {m : Metric} {prices : PriceTable} {b : Backend} {tenant : Tenant}
    {body : RequestBody} {q : Query} (h : m.query prices b tenant body = .ok q) :
    Paired b q.text q.args
      ((ScopedFilter.mk m.table tenant (body.filterOver m.table)).selectInlined b
        (m.selectionInlined prices b)) := by
  obtain ⟨source, text, p, c, -, hitems, -, -, -⟩ := Backend.select_ok h
  obtain ⟨⟨e, p'⟩, hexpr, hout⟩ := ok_of_bind hitems
  obtain ⟨vs, i, rfl, hinlined, hwritten⟩ := expr_written rfl hexpr
  cases hout
  have hname : separates (" AS " ++ m.column.name) = true := by cases m <;> decide
  have hselected := hwritten.behind hname
  refine select_written h hitems (fun render => ?_)
    (i := fun render => b.textOf (i render) ++ (" AS " ++ m.column.name)) ?_
  · rw [selectionInlined, hinlined]
    rfl
  · simp only [String.append_assoc] at hselected ⊢
    exact hselected

end Metric

/-! ## Any number of parts, and the queries made of them -/

/-- What is written into parameters that were empty is paired with them: any number
of parts, a compiled filter, a query that selects such parts, and every metric's. -/
theorem arguments_paired (b : Backend) :
    (∀ steps : List Step, (Step.runAll steps ⟨b, #[]⟩).2.backend = b ∧
      Paired b (commaList (Step.runAll steps ⟨b, #[]⟩).1)
        (Step.runAll steps ⟨b, #[]⟩).2.values.toList fun render =>
          some (commaList (steps.filterMap (Step.inlined b render)))) ∧
    (∀ s q, b.compile s = .ok q → Paired b q.text q.args (s.inlined b)) ∧
    (∀ s steps q, b.select s (Step.selection steps) = .ok q →
      Paired b q.text q.args (s.selectInlined b fun render =>
        some (commaList (steps.filterMap (Step.inlined b render))))) ∧
    (∀ (m : Metric) prices tenant body q, m.query prices b tenant body = .ok q →
      Paired b q.text q.args
        ((ScopedFilter.mk m.table tenant (body.filterOver m.table)).selectInlined b
          (m.selectionInlined prices b))) := by
  refine ⟨fun steps => ?_, fun s q h => ?_, fun s steps q h => ?_,
    fun m prices tenant body q h => Metric.query_paired h⟩
  · obtain ⟨texts, vs, hrun, -, -, hwritten⟩ := Step.runAll_written steps ⟨b, #[]⟩
    rw [hrun, Params.extend_toList]
    exact ⟨rfl, hwritten.paired⟩
  · obtain ⟨c, hc, rfl⟩ := Backend.compile_ok h
    have hinlined : s.inlined b = fun render => some (b.textOf (c.inlined b render)) := by
      funext render
      rw [ScopedFilter.inlined, hc]
    rw [hinlined]
    exact (Step.written_condition 0 hc).paired
  · obtain ⟨texts, vs, hrun, -, -, hwritten⟩ := Step.runAll_written steps ⟨b, #[]⟩
    refine select_written h ?_ (fun _ => rfl) hwritten
    rw [Step.selection, hrun]

theorem sampleScope_paired :
    ∃ q, Backend.postgres.compile sampleScope = .ok q ∧
      dollarTokens q.text.toList =
        (List.range' 1 q.args.length).map Backend.postgres.argumentText := by
  obtain ⟨q, h⟩ := sampleScope_compiles .postgres
  exact ⟨q, h, ((arguments_paired .postgres).2.1 sampleScope q h).dollars rfl⟩

/-- Models are named by texts; the leaf in front is bound and taken back. -/
def mismatchedScope : ScopedFilter where
  source := .requestResponseLog
  tenant := sampleScope.tenant
  filter := .leaf ⟨.requestResponseLog, .model, .equals, .int 7⟩

example : (Step.runAll [.value (.int 7), .condition .postgres mismatchedScope,
    .condition .duckdb sampleScope, .value .null] ⟨.postgres, #[]⟩).1 = ["$1", "$2"] := rfl

end RequestLog
