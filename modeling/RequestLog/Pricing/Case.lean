import RequestLog.Pricing.Table
import RequestLog.Sql.Query

/-!
# Prices inside of a query

A price table becomes one case expression over the columns of a model and of two
token counts. Its branches keep the order of the rules, so a store takes the same
rule as `PriceTable.resolve`, and a model that is absent takes none of them. The
names of models are arguments; costs are numbers and stand in the text.
-/

namespace RequestLog.Pricing

open Sql

def Facts.expr (f : Facts) (b : Backend) (prompt completion : Expr) : Expr :=
  .arithmetic .add
    (.arithmetic .mul (b.toDouble (.number f.promptCost)) (b.nonNegative prompt))
    (.arithmetic .mul (b.toDouble (.number f.completionCost)) (b.nonNegative completion))

/-- Whether a model's name fits an argument that holds a matcher's value. -/
def MatchOperator.expr (op : MatchOperator) (b : Backend) (model value : Expr) : Expr :=
  match op with
  | .equals => .compare .eq model value
  | .startsWith => b.startsWith model value
  | .includes => b.contains model value

def conditions (model : Expr) : List Rule → Params → List Expr × Params
  | [], p => ([], p)
  | r :: rest, p =>
      let (value, p) := p.push (.text r.matcher.value)
      let condition := r.matcher.operator.expr p.backend model value
      let (rest, p) := conditions model rest p
      (condition :: rest, p)

/-- The cost of a request whose model and token counts are given by expressions. -/
def PriceTable.caseExpr (t : PriceTable) (model prompt completion : Expr) (p : Params) :
    Expr × Params :=
  let cost (f : Facts) := f.expr p.backend prompt completion
  if t.rules.isEmpty then (cost t.fallback, p)
  else
    let (tests, q) := conditions model t.rules p
    (.caseWhen tests (t.rules.map (cost ·.facts)) (cost t.fallback), q)

end RequestLog.Pricing
