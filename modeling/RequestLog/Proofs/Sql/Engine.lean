import RequestLog.Proofs.Sql.Truth
import RequestLog.Proofs.Text.Search

/-!
# What is relied on in a store

A store takes an expression over one row of its own to a value, or refuses it. Of all that
it can be given, something is supposed here only of what a price case is made of
(`Engine.Ordinary`): the name of a model beside the texts that were bound, the place of such
a text in it beside zero and one, two counts, products of a double and a count, and their
sums. Of these nothing is supposed but what every one of the four backends documents. How a
store multiplies and adds is its own affair; it may refuse to, and it may have no result.
-/

namespace RequestLog.Sql

structure Engine where
  /-- The value of an expression, which may be absent, unless it is refused. -/
  value : Expr → Option (Option Datum)
  /-- Whether an expression holds as a condition, unless it is refused. -/
  holds : Expr → Option Bool
  /-- A double multiplied by an integer, or added to another one. Either may be refused, and
  what comes of it may be absent. -/
  times : Float → Int → Option (Option Float)
  plus : Float → Float → Option (Option Float)

/-- What is a double, if it is there and was not refused. -/
def doubles (x : Option (Option Float)) : Option (Option Datum) := x.map (·.map .float)

namespace Engine

variable (E : Engine)

/-- The result that belongs to the first condition that holds. -/
def chosen : List Expr → List Expr → Expr → Expr
  | c :: cs, r :: rs, otherwise =>
      if E.holds c = some true then r else chosen cs rs otherwise
  | _, _, otherwise => otherwise

/-- Doubles added up, of which either may be refused or absent, and the sum with it. -/
def sum : Option (Option Float) → Option (Option Float) → Option (Option Float)
  | some (some x), some (some y) => E.plus x y
  | some _, some _ => some none
  | _, _ => none

/-- Two products of a double and an integer, added up. -/
inductive Charges : Expr → Prop
  | intro {l l' r r' : Expr} {x y : Float} {i j : Int} :
      E.value l = some (some (.float x)) → E.value l' = some (some (.int i)) →
      E.value r = some (some (.float y)) → E.value r' = some (some (.int j)) →
      Charges (.arithmetic .add (.arithmetic .mul l l') (.arithmetic .mul r r'))

/-- The function of a backend that gives the larger of two numbers. -/
def larger : Backend → String
  | .sqlite => "max"
  | _ => "greatest"

/-- A store of some backend that was given some arguments, over a row where one expression
stands for the name of a model and others for counts. -/
structure Ordinary (b : Backend) (args : List Scalar) (model : Expr) (counts : List Expr) :
    Prop where
  equal {i : Nat} {s t : String} : E.value model = some (some (.text s)) →
    args[i]? = some (.text t) →
    E.holds (.compare .eq model (.argument (i + 1))) = some (decide (s = t))
  equalAbsent {i : Nat} {t : String} : E.value model = some none →
    args[i]? = some (.text t) →
    E.holds (.compare .eq model (.argument (i + 1))) = some false
  /-- Places are counted in characters or in bytes, which makes no difference to the first. -/
  place {i : Nat} {s t : String} : E.value model = some (some (.text s)) →
    args[i]? = some (.text t) → t ≠ "" →
    ∃ k : Nat, E.value (b.place model (.argument (i + 1))) = some (some (.int k)) ∧
      (0 < k ↔ t.toList <:+: s.toList) ∧ (k = 1 ↔ t.toList <+: s.toList)
  placeAbsent {i : Nat} {t : String} : E.value model = some none →
    args[i]? = some (.text t) →
    E.value (b.place model (.argument (i + 1))) = some none
  comparePlace {op : Comparison} {i : Nat} {v : Option Int} {k : Int} : k = 0 ∨ k = 1 →
    E.value (b.place model (.argument (i + 1))) = some (v.map .int) →
    E.holds (.compare op (b.place model (.argument (i + 1))) (.integer k)) =
      some (v.any (op.holds · k))
  /-- One backend has no test for a prefix and looks at the place instead. -/
  startsWith {i : Nat} {s t : String} : b ≠ .sqlite → E.value model = some (some (.text s)) →
    args[i]? = some (.text t) →
    E.holds (b.startsWith model (.argument (i + 1))) = some (decide (t.toList <+: s.toList))
  startsWithAbsent {i : Nat} {t : String} : b ≠ .sqlite → E.value model = some none →
    args[i]? = some (.text t) →
    E.holds (b.startsWith model (.argument (i + 1))) = some false
  orZero {e : Expr} {v : Option Int} : e ∈ counts → E.value e = some (v.map .int) →
    E.value (Backend.orZero e) = some (some (.int (v.getD 0)))
  larger {e : Expr} {i : Int} : e ∈ counts →
    E.value (Backend.orZero e) = some (some (.int i)) →
    E.value (.call (larger b) [Backend.orZero e, .integer 0]) = some (some (.int (max i 0)))
  mul {l r : Expr} {x : Float} {i : Int} : E.value l = some (some (.float x)) →
    E.value r = some (some (.int i)) →
    E.value (.arithmetic .mul l r) = doubles (E.times x i)
  add {l l' r r' : Expr} {x y : Option (Option Float)} :
    E.value (.arithmetic .mul l l') = doubles x →
    E.value (.arithmetic .mul r r') = doubles y →
    E.value (.arithmetic .add (.arithmetic .mul l l') (.arithmetic .mul r r')) =
      doubles (E.sum x y)
  /-- A case is refused when one of its conditions is. -/
  caseWhen {cs rs : List Expr} {otherwise : Expr} : cs.length = rs.length →
    (∀ c ∈ cs, (E.holds c).isSome) → (∀ r ∈ otherwise :: rs, E.Charges r) →
    E.value (.caseWhen cs rs otherwise) = E.value (E.chosen cs rs otherwise)

namespace Ordinary

variable {E : Engine} {b : Backend} {args : List Scalar} {model : Expr} {counts : List Expr}

end Ordinary

end Engine

end RequestLog.Sql
