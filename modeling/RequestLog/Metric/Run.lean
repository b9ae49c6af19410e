import RequestLog.Metric.Query
import RequestLog.Store.Executor

/-!
# Taking a metric

A metric asks a store at most once, and not at all when its query cannot be
built. The answer has to be one row with one number of the declared type; all
rows are looked at before they are counted, so a row of the wrong shape is
reported whatever their number.
-/

namespace RequestLog

namespace Metric

def readRow (m : Metric) (row : Store.Row) : Except Json.Fault MetricValue := do
  let v ← Json.require m.column.name (Json.get? m.column.name row)
  match m.column.kind with
  | .int => (Json.asInt64 v).map .count
  | _ => (Json.asFloat v).map .amount

def conclude (m : Metric) (answer : Except Store.FetchError (List Store.Row)) :
    Except MetricError MetricValue :=
  match answer with
  | .error e => .error (.fetch e)
  | .ok rows =>
      match rows.mapM m.readRow with
      | .error f => .error (.fetch (.decode (.shape f.message)))
      | .ok [v] => .ok v
      | .ok values => .error (.unexpectedRows values.length)

def run {m : Type → Type} [Monad m] (metric : Metric) (executor : Executor m)
    (prices : Pricing.PriceTable) (org text : String) :
    m (Except MetricError MetricValue) :=
  match metric.plan prices executor.backend org text with
  | .error e => pure (.error (.filter e))
  | .ok q => do
      let answer ← executor.fetch q [metric.column]
      return metric.conclude answer

/-- A metric taken from whichever of two stores serves it. -/
def runOn {m : Type → Type} [Monad m] (metric : Metric) (row column : Executor m)
    (prices : Pricing.PriceTable) (org text : String) :
    m (Except MetricError MetricValue) :=
  let executor := match metric.family with
    | .row => row
    | .column => column
  metric.run executor prices org text

end Metric

end RequestLog
