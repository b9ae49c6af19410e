import RequestLog.Decimal.Layout

/-!
# SQL expressions

The fragment of SQL that queries are made of. Expressions are trees; their text
is produced in one place (`Expr.text`) and depends on a dialect only in how an
argument is written. A junction puts both of its sides in parentheses, a negation
its only one, and nothing else does, so in every expression built here the
precedence of operators agrees with the tree.

`verbatim` stands for text that is given from outside and is not looked into.
-/

namespace RequestLog.Sql

structure ColumnRef where
  table : String
  column : String
  deriving DecidableEq, BEq, Inhabited

def ColumnRef.text (c : ColumnRef) : String := s!"{c.table}.{c.column}"

inductive Comparison where
  | eq | ne | gt | lt | ge | le
  deriving DecidableEq, BEq, Inhabited

def Comparison.text : Comparison → String
  | .eq => "="
  | .ne => "<>"
  | .gt => ">"
  | .lt => "<"
  | .ge => ">="
  | .le => "<="

inductive Junction where
  | and | or
  deriving DecidableEq, BEq, Inhabited

def Junction.text : Junction → String
  | .and => "AND"
  | .or => "OR"

inductive Arithmetic where
  | add | mul | div
  deriving DecidableEq, BEq, Inhabited

def Arithmetic.text : Arithmetic → String
  | .add => "+"
  | .mul => "*"
  | .div => "/"

inductive Expr where
  | verbatim (text : String)
  | column (c : ColumnRef)
  /-- A column that is named without its table. -/
  | bare (name : String)
  | argument (index : Nat)
  | truth (b : Bool)
  | integer (i : Int)
  | number (x : Float)
  | call (function : String) (args : List Expr)
  | countAll
  | countDistinct (e : Expr)
  | compare (op : Comparison) (left right : Expr)
  | like (left right : Expr)
  | isNull (e : Expr) (negated : Bool)
  | oneOf (e : Expr) (items : List Expr)
  | not (e : Expr)
  | junction (op : Junction) (left right : Expr)
  | arithmetic (op : Arithmetic) (left right : Expr)
  /-- `CAST(e AS type)`. -/
  | cast (e : Expr) (type : String)
  /-- `(e)::type`. -/
  | typed (e : Expr) (type : String)
  | caseWhen (conditions results : List Expr) (otherwise : Expr)
  deriving BEq, Inhabited

def commaList (parts : List String) : String := String.intercalate ", " parts

mutual

/-- The text of an expression, given how an argument is written. -/
def Expr.text (argument : Nat → String) : Expr → String
  | .verbatim s => s
  | .column c => c.text
  | .bare name => name
  | .argument i => argument i
  | .truth b => if b then "TRUE" else "FALSE"
  | .integer i => Decimal.intText i
  | .number x => Decimal.sqlText x
  | .call f args => s!"{f}({commaList (Expr.texts argument args)})"
  | .countAll => "count(*)"
  | .countDistinct e =>
      let values := s!"DISTINCT {e.text argument}"
      s!"count({values})"
  | .compare op l r => s!"{l.text argument} {op.text} {r.text argument}"
  | .like l r => s!"{l.text argument} LIKE {r.text argument}"
  | .isNull e negated =>
      e.text argument ++ (if negated then " IS NOT NULL" else " IS NULL")
  | .oneOf e items =>
      s!"{e.text argument} IN ({commaList (Expr.texts argument items)})"
  | .not e => s!"NOT ({e.text argument})"
  | .junction op l r => s!"({l.text argument}) {op.text} ({r.text argument})"
  | .arithmetic op l r => s!"{l.text argument} {op.text} {r.text argument}"
  | .cast e type => s!"CAST({e.text argument} AS {type})"
  | .typed e type => s!"({e.text argument})::{type}"
  | .caseWhen conditions results otherwise =>
      let branches :=
        Expr.branches (Expr.texts argument conditions) (Expr.texts argument results)
      s!"CASE{String.join branches} ELSE {otherwise.text argument} END"

def Expr.texts (argument : Nat → String) : List Expr → List String
  | [] => []
  | e :: rest => e.text argument :: Expr.texts argument rest

/-- The branches of a case, each with the space in front of it. -/
def Expr.branches : List String → List String → List String
  | c :: cs, r :: rs => s!" WHEN {c} THEN {r}" :: Expr.branches cs rs
  | _, _ => []

end

/-! ## Relations -/

inductive JoinKind where
  | inner | left
  deriving DecidableEq, BEq

def JoinKind.text : JoinKind → String
  | .inner => "INNER JOIN"
  | .left => "LEFT JOIN"

/-- A joined table, whose rows agree with those before it in one column. -/
structure Join where
  kind : JoinKind
  table : String
  left : ColumnRef
  right : ColumnRef
  deriving DecidableEq

structure Relation where
  table : String
  joins : List Join
  deriving DecidableEq

def Join.text (j : Join) : String :=
  s!" {j.kind.text} {j.table} ON {j.left.text} = {j.right.text}"

def Relation.text (r : Relation) : String :=
  r.table ++ String.join (r.joins.map Join.text)

def Relation.tables (r : Relation) : List String := r.table :: r.joins.map Join.table

end RequestLog.Sql
