import Mathlib.Algebra.Order.Field.Rat
import Mathlib.Data.Int.CharZero
import Mathlib.Tactic.NormNum
import RequestLog.Proofs.Filter.Truth
import RequestLog.Proofs.Metric.Isolation
import RequestLog.Proofs.Sql.Aggregate

/-!
# What the average latency is an average of

The latencies that there are in the rows that are kept are added up, and their sum is
divided by the number of all these rows; without any row it is 0 (`averageLatency_mean`).
So a row without a latency counts as one of 0, and what comes out is the mean of the
latencies that there are only where each kept row has one, or where their sum is 0. One
request that has been answered and one that has not are enough to see the difference
(`averageLatency_unanswered`).
-/

namespace RequestLog

open Sql

/-! ## The expression over any group -/

namespace Metric

/-- A mean divides what is present by the number of all rows. -/
theorem overall?_mean {g : RowGroup} {e : Expr} {found : List Int}
    (h : g.present? e = some found) :
    (mean g.backend e).overall? g = some (some
      (if g.rows = [] then .whole 0 else .exact (found.sum / g.rows.length))) := by
  have hsum : (total e).overall? g = some (some (.whole found.sum)) := by
    rw [total, RowGroup.overall?_orZero (RowGroup.overall?_sum h)]
    split
    · next hnone => rw [hnone]; rfl
    · rfl
  have hempty : Expr.decideEach g [.compare .eq .countAll (.integer 0)] =
      [some (some g.rows.isEmpty)] := by
    rw [Expr.decideEach, Expr.decideEach, Expr.decide?, Expr.overall?, Expr.overall?]
    cases g.rows <;> simp [Quantity.compareTruth, Quantity.value, Comparison.holds,
      Nat.cast_add_one_ne_zero]
  rw [mean, Expr.overall?, hempty, Expr.overallEach, Expr.overallEach]
  by_cases hrows : g.rows = []
  · simp [hrows, chosenBranch?, Expr.overall?]
  · have hnumber : (g.rows.length : ℚ) ≠ 0 := by
      simpa using hrows
    rw [Expr.overall?, Expr.overall?, RowGroup.overall?_toDouble hsum, Expr.overall?]
    simp [hrows, chosenBranch?, Backend.compute?, Backend.quotient, Quantity.value,
      Quantity.widened]

theorem overall?_average {g : RowGroup} {e : Expr} {found : List Int}
    (h : g.present? e = some found) :
    (g.backend.toDouble (mean g.backend e)).overall? g = some (some
      (.exact (if g.rows = [] then 0 else found.sum / g.rows.length))) := by
  rw [RowGroup.overall?_toDouble (overall?_mean h)]
  by_cases hrows : g.rows = [] <;> simp [hrows, Quantity.widened, Quantity.value]

end Metric

/-- Dividing by the number of all rows is dividing by the number of those that count. -/
theorem mean_eq_iff {total : ℚ} {found all : Nat} (hfound : found ≤ all)
    (hnone : found = 0 → total = 0) :
    (if all = 0 then 0 else total / all) = (if found = 0 then 0 else total / found) ↔
      total = 0 ∨ found = all := by
  by_cases hzero : total = 0
  · simp [hzero]
  · have hf : found ≠ 0 := fun h => hzero (hnone h)
    have ha : all ≠ 0 := by omega
    rw [if_neg ha, if_neg hf, div_eq_mul_inv, div_eq_mul_inv, mul_right_inj' hzero, inv_inj, Nat.cast_inj]
    simp only [hzero, false_or]
    exact eq_comm

/-! ## Stored rows -/

/-- The stored rows, taken together. -/
def Backend.group (b : Backend) {family : Family} (rows : List (TypedRow family))
    (args : List Scalar) (like : String → String → Bool) : RowGroup :=
  ⟨b, rows.map fun row => (b.setting row.value args like).row, args, like⟩

def TypedRow.whole? {family : Family} (c : ColumnRef) (row : TypedRow family) : Option Int :=
  (row.value c).bind Datum.whole?

theorem Backend.present?_group {b : Backend} {t : Table} {c : Column} {field : Field}
    (hfield : Registry.resolve? b.family t c = some field) (hkind : field.kind = .int)
    (rows : List (TypedRow b.family)) (args : List Scalar)
    (like : String → String → Bool) :
    (b.group rows args like).present? (.column field.column) =
      some (rows.filterMap (TypedRow.whole? field.column)) := by
  have hint : ∀ row : TypedRow b.family, ∀ d, row.value field.column = some d →
      ∃ i, d = .int i := by
    intro row d hd
    have hd := (row.typed t c field d hfield hd).trans hkind
    cases d with
    | int i => exact ⟨i, rfl⟩
    | bool | float | text | instant => cases hd
  have hstore : ∀ i, b.store (.int i) = .int i := fun i => by cases b <;> rfl
  rw [RowGroup.present?_column, group, List.filterMap_map]
  · congr 1
    refine List.filterMap_congr fun row _ => ?_
    change ((row.value field.column).map b.store).bind Datum.whole? = _
    rw [TypedRow.whole?]
    cases hd : row.value field.column with
    | none => rfl
    | some d =>
        obtain ⟨i, rfl⟩ := hint row d hd
        rw [Option.map_some, hstore]
  · intro stored hstored d hd
    obtain ⟨row, -, rfl⟩ := List.mem_map.1 hstored
    obtain ⟨d, hvalue, rfl⟩ := Option.map_eq_some_iff.1 hd
    obtain ⟨i, rfl⟩ := hint row d hvalue
    rw [hstore]
    rfl

/-! ## The average latency -/

namespace Metric

/-- The average latency is read as a mean over the column of the latencies. -/
theorem averageLatency_reads {prices : Pricing.PriceTable} {b : Backend} {tenant : Tenant}
    {body : RequestBody} {q : Query} (h : averageLatency.query prices b tenant body = .ok q) :
    ∃ source c latency, Registry.source? b.family .propertyWithResponse = some source ∧
      ScopedFilter.check ⟨.propertyWithResponse, tenant, body.filterOver .propertyWithResponse⟩
        b.family = .ok c ∧
      Registry.resolve? b.family .propertyWithResponse .latency = some latency ∧
      Select.ofText? q.text =
        some ⟨[(b.toDouble (mean b (.column latency.column)), "average_latency")],
          source.relation, c.expr b 0⟩ ∧
      q.args = c.operands.map b.encode := by
  obtain ⟨_, _, _, _, _, _, he, -⟩ := query_reads h
  obtain ⟨e, hcolumn, he⟩ := ok_of_bind he
  obtain ⟨latency, hlatency, rfl⟩ := columnExpr_ok hcolumn
  obtain ⟨hread, -⟩ := columnExpr_reads hcolumn
  have hmean : averageLatency.expr prices b ⟨b, #[]⟩ =
      .ok (b.toDouble (mean b (.column latency.column)), ⟨b, #[]⟩) := by
    rw [expr, exprOver, hcolumn]
    rfl
  obtain ⟨source, c, hsource, hc, htext, hargs⟩ := select_reads_item h hmean
    (readsAs_mean (hread.reads 0)).toDouble (by rw [arguments_mean, hread.arguments]; rfl)
  exact ⟨source, c, latency, hsource, hc, hlatency, htext, hargs⟩

/-- Over the rows for which its condition is true, the average latency is the sum of the
latencies that there are divided by the number of these rows, and 0 if there is none. It is
the mean of the latencies that there are exactly if none is missing or their sum is 0. -/
theorem averageLatency_mean {prices : Pricing.PriceTable} {b : Backend} {tenant : Tenant}
    {body : RequestBody} {q : Query} (h : averageLatency.query prices b tenant body = .ok q) :
    ∃ source latency item condition,
      Registry.source? b.family .propertyWithResponse = some source ∧
      Registry.resolve? b.family .propertyWithResponse .latency = some latency ∧
      Select.ofText? q.text =
        some ⟨[(item, "average_latency")], source.relation, condition⟩ ∧
      ∀ (like : String → String → Bool) (rows : List (TypedRow b.family)),
        ∃ (kept : List (TypedRow b.family)) (found : List Int) (x : ℚ),
          kept = rows.filter (fun row =>
            condition.truth? (b.setting row.value q.args like) = some (some true)) ∧
          found = kept.filterMap (TypedRow.whole? latency.column) ∧
          item.overall? (b.group kept q.args like) = some (some (.exact x)) ∧
          x = (if kept.length = 0 then 0 else (found.sum : ℚ) / kept.length) ∧
          (x = (if found.length = 0 then 0 else (found.sum : ℚ) / found.length) ↔
            found.sum = 0 ∨ found.length = kept.length) := by
  obtain ⟨source, c, latency, hsource, -, hlatency, htext, -⟩ := averageLatency_reads h
  refine ⟨source, latency, _, _, hsource, hlatency, htext, fun like rows => ?_⟩
  refine ⟨_, _, _, rfl, rfl, ?_, rfl, ?_⟩
  · generalize rows.filter _ = kept
    have hpresent := Backend.present?_group hlatency (Registry.kind_of_resolve hlatency)
      kept q.args like
    have haverage := overall?_average hpresent
    simpa [Backend.group] using haverage
  · generalize rows.filter _ = kept
    generalize hfound : kept.filterMap (TypedRow.whole? latency.column) = found
    have hlength : found.length ≤ kept.length := hfound ▸ List.length_filterMap_le ..
    rw [mean_eq_iff hlength, Int.cast_eq_zero]
    intro hnone
    rw [List.length_eq_zero_iff.1 hnone]
    rfl

end Metric

/-! ## Requests with and without a response -/

/-- A property of a request of "org_1", with the latency of the response, if there is one. -/
def latencyRow (latency : Option Int) : TypedRow Backend.sqlite.family where
  value c :=
    if c = ⟨"properties", "organization_id"⟩ then some (.text "org_1")
    else if c = ⟨"request", "created_at"⟩ then some (.instant ⟨0, 5000⟩)
    else if c = ⟨"response", "latency"⟩ then latency.map .int
    else none
  typed t c field d h hd := by
    rw [Registry.kind_of_resolve h]
    split at hd
    · next hname =>
        cases hd
        cases t <;> cases c <;> cases h <;> first | rfl | exact absurd hname (by decide)
    · split at hd
      · next hname =>
          cases hd
          cases t <;> cases c <;> cases h <;> first | rfl | exact absurd hname (by decide)
      · split at hd
        · next hname =>
            obtain ⟨i, -, rfl⟩ := Option.map_eq_some_iff.1 hd
            cases t <;> cases c <;> cases h <;> first | rfl | exact absurd hname (by decide)
        · cases hd

theorem ownScope_latencyRow {c : Condition} (hc : ownScope.check .row = .ok c)
    (latency : Option Int) (like : String → String → Bool) :
    (c.expr .sqlite 0).truth? (Backend.sqlite.setting (latencyRow latency).value
      (c.operands.map Backend.sqlite.encode) like) = some (some true) := by
  cases hc
  rfl

theorem averageLatency_answered :
    ∃ q source item condition,
      Metric.averageLatency.query Pricing.overlapping .sqlite ownScope.tenant
        firstSecondBody = .ok q ∧
      Select.ofText? q.text = some ⟨[(item, "average_latency")], source, condition⟩ ∧
      (∀ latency, condition.truth? (Backend.sqlite.setting (latencyRow latency).value q.args
        Relational.like) = some (some true)) ∧
      item.overall? (Backend.sqlite.group [latencyRow (some 100), latencyRow (some 300)]
        q.args Relational.like) = some (some (.exact 200)) := by
  obtain ⟨q, hq⟩ : ∃ q, Metric.averageLatency.query Pricing.overlapping .sqlite
    ownScope.tenant firstSecondBody = .ok q := ⟨_, rfl⟩
  obtain ⟨source, latency, item, condition, -, hlatency, htext, hmean⟩ :=
    Metric.averageLatency_mean hq
  obtain ⟨_, c, _, -, hc, -, htext', hargs⟩ := Metric.averageLatency_reads hq
  have hcondition : condition = c.expr .sqlite 0 :=
    congrArg Select.condition (Option.some.inj (htext.symm.trans htext'))
  have htrue : ∀ latency, condition.truth? (Backend.sqlite.setting (latencyRow latency).value
      q.args Relational.like) = some (some true) := by
    intro latency
    rw [hcondition, hargs]
    exact ownScope_latencyRow hc latency Relational.like
  refine ⟨q, source.relation, item, condition, hq, htext, htrue, ?_⟩
  obtain ⟨kept, found, x, hkept, hfound, hx, hvalue, -⟩ :=
    hmean Relational.like [latencyRow (some 100), latencyRow (some 300)]
  have hboth : kept = [latencyRow (some 100), latencyRow (some 300)] := by
    rw [hkept, List.filter_eq_self]
    intro row hrow
    rcases List.mem_pair.1 hrow with rfl | rfl <;> exact decide_eq_true (htrue _)
  subst hboth
  cases hlatency
  have hlatencies : found = [100, 300] := hfound
  have hmid : x = 200 := by
    rw [hvalue, hlatencies]
    norm_num
  rw [← hmid]
  exact hx

/-- With one request that has been answered after 100 milliseconds, and one that has not
been, the average is not the 100 milliseconds that the only latency is. -/
theorem averageLatency_unanswered :
    ∃ q source item condition,
      Metric.averageLatency.query Pricing.overlapping .sqlite ownScope.tenant
        firstSecondBody = .ok q ∧
      Select.ofText? q.text = some ⟨[(item, "average_latency")], source, condition⟩ ∧
      (∀ latency, condition.truth? (Backend.sqlite.setting (latencyRow latency).value q.args
        Relational.like) = some (some true)) ∧
      item.overall? (Backend.sqlite.group [latencyRow (some 100), latencyRow none] q.args
        Relational.like) = some (some (.exact 50)) ∧
      [latencyRow (some 100), latencyRow none].filterMap
        (TypedRow.whole? ⟨"response", "latency"⟩) = [100] ∧
      (50 : ℚ) ≠ 100 / 1 := by
  obtain ⟨q, hq⟩ : ∃ q, Metric.averageLatency.query Pricing.overlapping .sqlite
    ownScope.tenant firstSecondBody = .ok q := ⟨_, rfl⟩
  obtain ⟨source, c, latency, -, hc, hlatency, htext, hargs⟩ :=
    Metric.averageLatency_reads hq
  have hpresent := Backend.present?_group (b := .sqlite) hlatency
    (Registry.kind_of_resolve hlatency) [latencyRow (some 100), latencyRow none] q.args
    Relational.like
  cases hlatency
  refine ⟨q, _, _, _, hq, htext, fun latency => ?_, ?_, rfl, by norm_num⟩
  · rw [hargs]
    exact ownScope_latencyRow hc latency Relational.like
  · have hhalf : (if [latencyRow (some 100), latencyRow none].length = 0 then 0
        else (([100] : List Int).sum : ℚ) / 2) = 50 := by norm_num
    rw [← hhalf]
    exact Metric.overall?_average hpresent

end RequestLog
