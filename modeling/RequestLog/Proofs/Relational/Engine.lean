import Mathlib.Data.List.Forall2
import RequestLog.Proofs.Sql.Engine
import RequestLog.Relational.Evaluate
import RequestLog.Store.Sqlite.Client

/-!
# The embedded store does what is relied on

The evaluator of the embedded store, over one record and outside of any group, is an
ordinary store of its backend: what is asked of a store is no more than this one does.
-/

namespace RequestLog.Relational

open Sql

namespace Value

def datum? : Value → Option Datum
  | .null => none
  | .int i => some (.int i)
  | .real x => some (.float x)
  | .text s => some (.text s)

theorem truth_ofTruth (t : Option Bool) : (ofTruth t).truth = t := by
  cases t with
  | none => rfl
  | some b => cases b <;> rfl

end Value

/-- What is not a number is absent. -/
def numeric (x : Float) : Option Float := if x.isNaN then none else some x

/-- Evaluation over one record, as far as it is not refused. -/
def engine (s : Scope) : Engine where
  value e := (evaluate s e).toOption.map Value.datum?
  holds e := (evaluate s e).toOption.map fun v => v.truth == some true
  times x i := some (numeric (x * Decimal.ofInt i))
  plus x y := some (numeric (x + y))

variable {s : Scope} {e l r : Expr} {v w : Value} {d : Option Datum}

theorem holds_of_evaluate (h : evaluate s e = .ok v) :
    (engine s).holds e = some (v.truth == some true) := by
  change (evaluate s e).toOption.map _ = _
  rw [h]
  rfl

theorem holds_of_error {f : Fault} (h : evaluate s e = .error f) :
    (engine s).holds e = none := by
  change (evaluate s e).toOption.map _ = _
  rw [h]
  rfl

theorem holds_compare {op : Comparison} (hl : evaluate s l = .ok v)
    (hr : evaluate s r = .ok w) :
    (engine s).holds (.compare op l r) = some ((compareTruth op v w).getD false) := by
  have hcompare : evaluate s (.compare op l r) = .ok (.ofTruth (compareTruth op v w)) := by
    rw [evaluate, hl, hr]
    rfl
  rw [holds_of_evaluate hcompare, Value.truth_ofTruth]
  cases compareTruth op v w with
  | none => rfl
  | some b => cases b <;> rfl

theorem compareTexts_beq_eq (a b : String) :
    (Value.compareTexts a b == .eq) = decide (a = b) := by
  rw [Value.compareTexts]
  split
  · next hlt => exact (decide_eq_false (String.ne_of_lt hlt)).symm
  · next hab =>
      split
      · next hlt => exact (decide_eq_false (String.ne_of_lt hlt).symm).symm
      · next hba =>
          have heq := String.le_antisymm (String.not_lt.1 hba) (String.not_lt.1 hab)
          exact (decide_eq_true heq).symm

end RequestLog.Relational
