import RequestLog.Program
import RequestLog.Proofs.Metric.Outcome
import RequestLog.Proofs.Pricing.Agreement
import RequestLog.Proofs.Sql.Renumber

/-!
# The condition of a request, alone and inside of a query

The command that prints the condition of a request and the metrics that run it go two
ways. One compiles the scoped filter by itself; the other compiles it behind a selection
that has bound arguments of its own. They come to the same: what a metric selects never
fails, so the two ways fail on the same requests and for the same reason, and its
arguments only move the condition's to higher numbers.
-/

namespace RequestLog

open Sql Pricing

variable {b : Backend}

/-! ## Conditions behind a selection -/

/-- The query that selects items from a source where a compiled condition holds, behind
the arguments of the items. -/
def Backend.selecting (b : Backend) (items : String) (selected : List Scalar)
    (source : Source) (w : Query) : Query :=
  ⟨b, "SELECT " ++ items ++ " FROM " ++ source.relation.text ++ " WHERE "
    ++ b.renumbered selected.length w.text, selected ++ w.args⟩

theorem Backend.select_eq {s : ScopedFilter} {items : Selection} {source : Source}
    {text : String} {selected : List Scalar}
    (hsource : Registry.source? b.family s.source = some source)
    (hitems : items ⟨b, #[]⟩ = .ok (text, ⟨b, selected.toArray⟩)) :
    b.select s items = (b.compile s).map (b.selecting text selected source) := by
  rw [compile_eq]
  cases hcheck : s.check b.family with
  | error e => exact select_error hitems rfl hcheck
  | ok c =>
      obtain ⟨_, _, hchecks⟩ := ScopedFilter.checks_of_check hcheck
      have hrelation : s.relation b.family = .ok source := by
        rw [ScopedFilter.relation, hsource]
      have htext : b.textOf (c.expr b selected.length) =
          b.renumbered selected.length (b.textOf (c.expr b 0)) := by
        rw [← hchecks.legible.textBehind_eq, ← Condition.textBehind, Nat.zero_add]
      have hinto : b.compileInto s ⟨b, selected.toArray⟩ =
          .ok (b.renumbered selected.length (b.textOf (c.expr b 0)),
            ⟨b, (selected ++ c.operands.map b.encode).toArray⟩) := by
        rw [compileInto_eq (b := b) rfl, hcheck, ← htext]
        simp [Except.map, Params.size, Params.extend]
      rw [select, hrelation]
      change (items ⟨b, #[]⟩ >>= _) = _
      rw [hitems]
      change (b.compileInto s ⟨b, selected.toArray⟩ >>= _) = _
      rw [hinto]
      rfl

namespace Metric

/-- The values that a metric binds for what it selects: the models of the price rules. -/
def selected (metric : Metric) (prices : PriceTable) : List Scalar :=
  match metric with
  | .totalCost => prices.operands
  | _ => []

/-- The columns that cost is computed from are there in every store. -/
theorem costColumn_ok (b : Backend) {c : Column}
    (hc : c ∈ [Column.model, .promptTokens, .completionTokens]) :
    ∃ e, columnExpr totalCost.table b c = .ok e := by
  simp only [List.mem_cons, List.not_mem_nil, or_false] at hc
  rcases hc with rfl | rfl | rfl <;> cases b <;> exact ⟨_, rfl⟩

/-- What a metric selects never fails, and it does not depend on the request. -/
theorem selection_ok (metric : Metric) (prices : PriceTable) (b : Backend) :
    ∃ items, metric.selection prices b ⟨b, #[]⟩ =
      .ok (items, ⟨b, (metric.selected prices).toArray⟩) := by
  cases metric with
  | totalRequests => exact ⟨_, rfl⟩
  | activeUsers => cases b <;> exact ⟨_, rfl⟩
  | averageLatency => cases b <;> exact ⟨_, rfl⟩
  | totalCost =>
      obtain ⟨model, hmodel⟩ := costColumn_ok b (c := .model) (by simp)
      obtain ⟨prompt, hprompt⟩ := costColumn_ok b (c := .promptTokens) (by simp)
      obtain ⟨completion, hcompletion⟩ := costColumn_ok b (c := .completionTokens) (by simp)
      have hcost := prices.caseExpr_eq model prompt completion ⟨b, #[]⟩
      simp only [selection, selectionOver, exprOver, hmodel, hprompt, hcompletion, bind,
        Except.bind, hcost]
      simp [Params.extend, selected, pure, Except.pure]

theorem source_ok (metric : Metric) (family : Family) :
    ∃ source, Registry.source? family metric.table = some source := by
  cases metric <;> cases family <;> exact ⟨_, rfl⟩

/-- The query of a metric is the condition of the request behind the metric's selection. -/
theorem plan_eq (metric : Metric) (prices : PriceTable) (b : Backend) {items : String}
    {selected : List Scalar} {source : Source} (org text : String)
    (hitems : metric.selection prices b ⟨b, #[]⟩ = .ok (items, ⟨b, selected.toArray⟩))
    (hsource : Registry.source? b.family metric.table = some source) :
    metric.plan prices b org text =
      (Program.compile b metric.table org text).map (b.selecting items selected source) := by
  rw [plan, Program.compile]
  cases Tenant.ofName org with
  | error e => rfl
  | ok tenant =>
      change (RequestBody.parse text >>= _) = Except.map _ (RequestBody.parse text >>= _)
      cases RequestBody.parse text with
      | error e => rfl
      | ok body => exact Backend.select_eq hsource hitems

theorem length_selected (metric : Metric) (prices : PriceTable) :
    (metric.selected prices).length =
      if metric = .totalCost then prices.rules.length else 0 := by
  cases metric with
  | totalCost => simp [selected, PriceTable.operands]
  | totalRequests | activeUsers | averageLatency => rfl

variable {m : Type → Type} [Monad m]

/-- The condition that a request compiles to alone is the one that a metric has its store
look for, and a request that does not compile is the one that no store hears of. -/
theorem run_of_compile [LawfulMonad m] (metric : Metric) (executor : Executor m)
    (prices : PriceTable) :
    ∃ items selected source,
      metric.selection prices executor.backend ⟨executor.backend, #[]⟩ =
        .ok (items, ⟨executor.backend, selected.toArray⟩) ∧
      selected.length = (if metric = .totalCost then prices.rules.length else 0) ∧
      Registry.source? executor.backend.family metric.table = some source ∧
      ∀ org text,
        (∀ e, Program.compile executor.backend metric.table org text = .error e ↔
          metric.plan prices executor.backend org text = .error e) ∧
        ∀ calls, (metric.run executor.recorded prices org text).run calls =
          match Program.compile executor.backend metric.table org text with
          | .error e => pure (.error (.filter e), calls)
          | .ok w => do
              let q := executor.backend.selecting items selected source w
              let answer ← executor.fetch q [metric.column]
              return (metric.conclude answer, calls ++ [⟨q, [metric.column]⟩]) := by
  obtain ⟨items, hitems⟩ := metric.selection_ok prices executor.backend
  obtain ⟨source, hsource⟩ := metric.source_ok executor.backend.family
  refine ⟨items, metric.selected prices, source, hitems, metric.length_selected prices,
    hsource, fun org text => ?_⟩
  have hplan := metric.plan_eq prices executor.backend org text hitems hsource
  refine ⟨fun e => ?_, fun calls => ?_⟩
  · rw [hplan, map_error_iff]
  · rw [metric.run_recorded, hplan]
    cases Program.compile executor.backend metric.table org text with
    | error e => rfl
    | ok w => rfl

end Metric

/-- A store that has no rows, on the backend that numbers its arguments. -/
def noneFound : Executor Id where
  backend := .postgres
  fetch _ _ := pure (.ok [])

theorem compile_leapText : Program.compile .postgres .requestResponseLog "org_1" leapText =
    .ok ⟨.postgres,
      "(request.organization_id = $1) AND (((request.created_at >= $2) AND "
        ++ "(request.created_at <= $3)) AND (TRUE))",
      [.text "org_1", .timestamp ⟨1483228799, 1500000000⟩,
        .timestamp ⟨1483228800, 200000000⟩]⟩ := by
  change (RequestBody.parse leapText >>= _) = _
  rw [parse_leapText]
  rfl

/-- The cost of a request's rows is asked with the models of three price rules in front
of the three arguments of its condition. -/
theorem totalCost_noneFound :
    ∃ items, (Metric.totalCost.run noneFound.recorded overlapping "org_1" leapText).run [] =
      (.error (.unexpectedRows 0), [⟨⟨.postgres,
        "SELECT " ++ items ++ " FROM "
          ++ "request LEFT JOIN response ON response.request_id = request.id" ++ " WHERE "
          ++ ("(request.organization_id = $4) AND (((request.created_at >= $5) AND "
            ++ "(request.created_at <= $6)) AND (TRUE))"),
        [.text "gpt-4", .text "gpt-4", .text "gpt", .text "org_1",
          .timestamp ⟨1483228799, 1500000000⟩, .timestamp ⟨1483228800, 200000000⟩]⟩,
        [Metric.totalCost.column]⟩]) := by
  obtain ⟨items, selected, source, hitems, -, hsource, hrun⟩ :=
    Metric.totalCost.run_of_compile noneFound overlapping
  obtain ⟨items', hitems'⟩ := Metric.totalCost.selection_ok overlapping .postgres
  have hselected : selected.toArray = (Metric.totalCost.selected overlapping).toArray :=
    congrArg (fun out => out.2.values) (Except.ok.inj (hitems.symm.trans hitems'))
  have hcompiled : Program.compile noneFound.backend Metric.totalCost.table "org_1"
      leapText = _ := compile_leapText
  have hnumbers : noneFound.backend.renumbered 3
      ("(request.organization_id = $1) AND (((request.created_at >= $2) AND "
        ++ "(request.created_at <= $3)) AND (TRUE))") =
      "(request.organization_id = $4) AND (((request.created_at >= $5) AND "
        ++ "(request.created_at <= $6)) AND (TRUE))" := by decide +kernel
  cases List.toArray_inj hselected
  cases hsource
  have hcalls := (hrun "org_1" leapText).2 []
  rw [hcompiled] at hcalls
  refine ⟨items, hcalls.trans ?_⟩
  rw [← hnumbers]
  rfl

end RequestLog
