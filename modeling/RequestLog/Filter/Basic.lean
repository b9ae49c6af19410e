import RequestLog.Field.Name
import RequestLog.Scalar

/-!
# Filter trees

A filter is a leaf that compares one column with a value, two filters joined by
a connective, or the filter that matches every row. The tree does not depend on
what its leaves compare with: a tree as it was written holds plain data
(`FilterOf Json`), and a tree ready for use holds scalars of the column's kind.
-/

namespace RequestLog

inductive Operator where
  | equals
  | notEquals
  | greaterThan
  | lessThan
  | greaterOrEqual
  | lessOrEqual
  | like
  | isNull
  | isNotNull
  | contains
  | in
  deriving DecidableEq, BEq, Inhabited

namespace Operator

def all : List Operator :=
  [.equals, .notEquals, .greaterThan, .lessThan, .greaterOrEqual, .lessOrEqual,
   .like, .isNull, .isNotNull, .contains, .in]

def name : Operator → String
  | .equals => "equals"
  | .notEquals => "not_equals"
  | .greaterThan => "greater_than"
  | .lessThan => "less_than"
  | .greaterOrEqual => "greater_or_equal"
  | .lessOrEqual => "less_or_equal"
  | .like => "like"
  | .isNull => "is_null"
  | .isNotNull => "is_not_null"
  | .contains => "contains"
  | .in => "in"

def names : List String := all.map name

def ofName? (s : String) : Option Operator := all.find? (·.name == s)

/-- Order is for what can be measured, patterns are for text, sets for all but truth. -/
def supports : Operator → Kind → Bool
  | .equals, _ | .notEquals, _ | .isNull, _ | .isNotNull, _ => true
  | .greaterThan, k | .lessThan, k | .greaterOrEqual, k | .lessOrEqual, k =>
      k = .int || k = .float || k = .timestamp
  | .like, k | .contains, k => k = .text
  | .in, k => k ≠ .bool

end Operator

inductive Connective where
  | and
  | or
  deriving DecidableEq, BEq, Inhabited

namespace Connective

def all : List Connective := [.and, .or]

def name : Connective → String
  | .and => "and"
  | .or => "or"

def names : List String := all.map name

def ofName? (s : String) : Option Connective := all.find? (·.name == s)

end Connective

structure LeafOf (ν : Type) where
  table : Table
  column : Column
  operator : Operator
  value : ν
  deriving BEq

def fieldName (t : Table) (c : Column) : String := s!"{t.name}.{c.name}"

inductive FilterOf (ν : Type) where
  | leaf (l : LeafOf ν)
  | branch (left right : FilterOf ν) (op : Connective)
  | all
  deriving BEq

abbrev Leaf := LeafOf Scalar

abbrev Filter := FilterOf Scalar

instance {ν : Type} : Inhabited (FilterOf ν) := ⟨.all⟩

namespace FilterOf

variable {ν : Type}

def and (left right : FilterOf ν) : FilterOf ν := .branch left right .and

def or (left right : FilterOf ν) : FilterOf ν := .branch left right .or

/-- Nesting depth; a leaf alone has depth one. -/
def depth : FilterOf ν → Nat
  | .leaf _ | .all => 1
  | .branch left right _ => 1 + max left.depth right.depth

def leaves : FilterOf ν → List (LeafOf ν)
  | .leaf l => [l]
  | .branch left right _ => left.leaves ++ right.leaves
  | .all => []

end FilterOf

end RequestLog
