import Mathlib.Algebra.BigOperators.Group.List.Defs
import Mathlib.Algebra.Ring.Int.Defs
import Mathlib.Data.Rat.Defs
import RequestLog.Proofs.Sql.Truth

/-!
# What an expression says about a group of rows

The usual meaning of the computations over all rows of a group. Numbers are exact:
nothing is rounded and nothing overflows. A number keeps in mind whether it is an
integer, because a quotient of two integers is one again in the row stores. `sum`
leaves out the rows in which its operand is absent, and is itself absent if there is
no other row; `count(*)` counts them all.

As for single rows, an expression that is outside of this fragment has no meaning, and
neither has a quotient by zero. Only the branch of a case that is taken needs one.
-/

namespace RequestLog

open Sql

/-! ## Numbers -/

/-- An integer, or a number of a type that has fractions. -/
inductive Quantity where
  | whole (i : Int)
  | exact (x : ℚ)
  deriving DecidableEq

namespace Quantity

def value : Quantity → ℚ
  | .whole i => i
  | .exact x => x

/-- The number as one of a type that has fractions. -/
def widened (x : Quantity) : Quantity := .exact x.value

end Quantity

def Backend.quotient (b : Backend) : Quantity → Quantity → Quantity
  | .whole i, .whole j =>
      match b.family with
      | .row => .whole (i.tdiv j)
      | .column => .exact (i / j)
  | x, y => .exact (x.value / y.value)

def Backend.compute? (b : Backend) : Arithmetic → Quantity → Quantity → Option Quantity
  | .add, .whole i, .whole j => some (.whole (i + j))
  | .add, x, y => some (.exact (x.value + y.value))
  | .mul, .whole i, .whole j => some (.whole (i * j))
  | .mul, x, y => some (.exact (x.value * y.value))
  | .div, x, y => if y.value = 0 then none else some (b.quotient x y)

/-- The name of the type of doubles. -/
def Backend.doubleType : Backend → String
  | .sqlite => "REAL"
  | .postgres => "DOUBLE PRECISION"
  | .duckdb => "DOUBLE"
  | .clickhouse => "Float64"

/-- The functions of numbers, one of which may be absent. -/
def Backend.numeric? (b : Backend) (name : String) (vs : List (Option Quantity)) :
    Option (Option Quantity) :=
  match b, name, vs with
  | _, "coalesce", vs => some (vs.findSome? id)
  | .clickhouse, "toFloat64", [v] => some (v.map Quantity.widened)
  | _, _, _ => none

def Datum.whole? : Datum → Option Int
  | .int i => some i
  | _ => none

/-! ## Groups -/

/-- The stored rows that are taken together, with the arguments of their query. -/
structure RowGroup where
  backend : Backend
  rows : List (ColumnRef → Option Datum)
  args : List Scalar
  like : String → String → Bool

namespace RowGroup

def settings (g : RowGroup) : List Setting := g.rows.map (⟨g.backend, ·, g.args, g.like⟩)

/-- The integers that an operand is in the rows in which it is present. -/
def present? (g : RowGroup) (e : Expr) : Option (List Int) := do
  let vs ← g.settings.mapM e.value?
  (vs.filterMap id).mapM Datum.whole?

def sum? (g : RowGroup) : List Expr → Option (Option Quantity)
  | [e] => do
      match ← g.present? e with
      | [] => return none
      | i :: rest => return some (.whole (i :: rest).sum)
  | _ => none

end RowGroup

/-- The first branch whose condition is true, or what there is otherwise. -/
def chosenBranch? {α : Type} :
    List (Option Truth) → List (Option α) → Option α → Option α
  | c :: cs, r :: rs, otherwise => do
      match ← c with
      | some true => r
      | _ => chosenBranch? cs rs otherwise
  | _, _, otherwise => otherwise

def Quantity.compareTruth (op : Sql.Comparison) :
    Option Quantity → Option Quantity → Truth
  | some x, some y => some (op.holds x.value y.value)
  | _, _ => none

namespace Sql

mutual

/-- The number that an expression is over a group of rows, `some none` for NULL. -/
def Expr.overall? (g : RowGroup) : Expr → Option (Option Quantity)
  | .integer i => some (some (.whole i))
  | .countAll => some (some (.whole g.rows.length))
  | .call f args =>
      if f = "sum" then g.sum? args
      else do
        let vs ← (Expr.overallEach g args).mapM id
        g.backend.numeric? f vs
  | .arithmetic op l r => do
      match ← l.overall? g, ← r.overall? g with
      | some x, some y => (g.backend.compute? op x y).map some
      | _, _ => return none
  | .cast e type | .typed e type => do
      let v ← e.overall? g
      if type = g.backend.doubleType then some (v.map Quantity.widened) else none
  | .caseWhen conditions results otherwise =>
      chosenBranch? (Expr.decideEach g conditions) (Expr.overallEach g results)
        (otherwise.overall? g)
  | _ => none

def Expr.overallEach (g : RowGroup) : List Expr → List (Option (Option Quantity))
  | [] => []
  | e :: rest => e.overall? g :: Expr.overallEach g rest

/-- What a condition says about a group as a whole. -/
def Expr.decide? (g : RowGroup) : Expr → Option Truth
  | .truth b => some (some b)
  | .compare op l r => do
      let x ← l.overall? g
      let y ← r.overall? g
      return Quantity.compareTruth op x y
  | _ => none

def Expr.decideEach (g : RowGroup) : List Expr → List (Option Truth)
  | [] => []
  | e :: rest => e.decide? g :: Expr.decideEach g rest

end

end Sql

/-! ## Sums, and conversions to a double -/

namespace RowGroup

variable {g : RowGroup} {e : Expr}

/-- The integers in a column that holds nothing else. -/
theorem present?_column {c : ColumnRef}
    (h : ∀ row ∈ g.rows, ∀ d, row c = some d → d.kind = .int) :
    g.present? (.column c) =
      some (g.rows.filterMap fun row => (row c).bind Datum.whole?) := by
  have hvalues : g.settings.mapM (Expr.column c).value? = some (g.rows.map (· c)) := by
    rw [settings, List.mapM_map]
    exact List.mapM_pure
  rw [present?, hvalues, Option.bind_eq_bind, Option.bind_some, List.filterMap_map]
  change (g.rows.filterMap (· c)).mapM Datum.whole? = _
  generalize g.rows = rows at h ⊢
  induction rows with
  | nil => rfl
  | cons row rest ih =>
      obtain ⟨hrow, hrest⟩ := List.forall_mem_cons.1 h
      cases hd : row c with
      | none => simpa [hd] using ih hrest
      | some d =>
          cases d with
          | int i => simp [hd, List.mapM_cons, ih hrest, Datum.whole?]
          | bool | float | text | instant => cases hrow _ hd

theorem overall?_sum {found : List Int} (h : g.present? e = some found) :
    (Expr.call "sum" [e]).overall? g =
      some (if found = [] then none else some (.whole found.sum)) := by
  rw [Expr.overall?, if_pos rfl, sum?, h]
  cases found with
  | nil => rfl
  | cons => rfl

theorem overall?_orZero {v : Option Quantity} (h : e.overall? g = some v) :
    (Backend.orZero e).overall? g = some (some (v.getD (.whole 0))) := by
  have hargs : Expr.overallEach g [e, .integer 0] = [some v, some (some (.whole 0))] := by
    rw [Expr.overallEach, Expr.overallEach, Expr.overallEach, h, Expr.overall?]
  rw [Backend.orZero, Expr.overall?, if_neg (by decide), hargs]
  cases v <;> cases g.backend <;> rfl

theorem overall?_toDouble {v : Option Quantity} (h : e.overall? g = some v) :
    (g.backend.toDouble e).overall? g = some (v.map Quantity.widened) := by
  cases hb : g.backend with
  | sqlite | duckdb | postgres =>
      rw [Backend.toDouble, Expr.overall?, h]
      simp [hb, Backend.doubleType]
  | clickhouse =>
      have hargs : Expr.overallEach g [e] = [some v] := by
        rw [Expr.overallEach, Expr.overallEach, h]
      rw [Backend.toDouble, Expr.overall?, if_neg (by decide), hargs, hb]
      rfl

end RowGroup

end RequestLog
