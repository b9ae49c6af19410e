import RequestLog.Filter.Body
import RequestLog.Metric.Basic
import RequestLog.Pricing.Case
import RequestLog.Sql.Compile

/-!
# The query of a metric

Every metric selects one expression over its table, from the rows of one
organization that lie in the time range and pass the caller's filter. Sums of
nothing are zero, and an average of nothing is zero too, so the only row of the
answer always holds a number.
-/

namespace RequestLog.Metric

open Sql

/-- A column of a table, as the store keeps it. -/
def columnExpr (t : Table) (b : Backend) (c : Column) : Except FilterError Expr :=
  match Registry.resolve? b.family t c with
  | some f => .ok (.column f.column)
  | none => unknownField b.family t c

/-- The sum of an expression over all rows, zero when there is nothing to add. -/
def total (e : Expr) : Expr := Backend.orZero (.call "sum" [e])

/-- The sum of an expression for each row, zero when there are no rows. -/
def mean (b : Backend) (e : Expr) : Expr :=
  .caseWhen [.compare .eq .countAll (.integer 0)] [.integer 0]
    (.arithmetic .div (b.toDouble (total e)) .countAll)

/-- A metric's expression over the columns of a table. -/
def exprOver (m : Metric) (t : Table) (prices : Pricing.PriceTable) (b : Backend)
    (p : Params) : Except FilterError (Expr × Params) :=
  match m with
  | .totalRequests => .ok (.countAll, p)
  | .activeUsers => do
      let user ← columnExpr t b .userId
      return (.countDistinct user, p)
  | .averageLatency => do
      let latency ← columnExpr t b .latency
      return (b.toDouble (mean b latency), p)
  | .totalCost => do
      let model ← columnExpr t b .model
      let prompt ← columnExpr t b .promptTokens
      let completion ← columnExpr t b .completionTokens
      let (cost, p) := prices.caseExpr model prompt completion p
      return (b.toDouble (total cost), p)

def expr (m : Metric) : Pricing.PriceTable → Backend → Params →
    Except FilterError (Expr × Params) :=
  m.exprOver m.table

def selectionOver (m : Metric) (t : Table) (prices : Pricing.PriceTable) (b : Backend) :
    Backend.Selection := fun p => do
  let (e, p) ← m.exprOver t prices b p
  return (s!"{b.textOf e} AS {m.column.name}", p)

def selection (m : Metric) : Pricing.PriceTable → Backend → Backend.Selection :=
  m.selectionOver m.table

def query (m : Metric) (prices : Pricing.PriceTable) (b : Backend)
    (tenant : Tenant) (body : RequestBody) : Except FilterError Query :=
  b.select ⟨m.table, tenant, body.filterOver m.table⟩ (m.selection prices b)

/-- The metric's query for the name of an organization and the text of a request. -/
def plan (m : Metric) (prices : Pricing.PriceTable) (b : Backend)
    (org text : String) : Except FilterError Query := do
  let tenant ← Tenant.ofName org
  let body ← RequestBody.parse text
  m.query prices b tenant body

end RequestLog.Metric
