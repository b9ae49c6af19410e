import RequestLog.Relational.Database
import RequestLog.Sql.Select

/-!
# Answering a query

The records of a relation are those of its first table, each beside every row of
a joined table that agrees with it; where a left join finds none, the record stays
and has absent values. Of these the condition keeps the ones for which it is true.

A query with an aggregate has one row, over all records that were kept. Any other
has one row for each of them.

A query that names something that is not there fails even where no record is.
-/

namespace RequestLog.Relational

open Sql

structure Result where
  names : List String
  rows : List (List Value)

def Table.refs (t : Table) : List ColumnRef :=
  t.columns.map fun c => ⟨t.definition.name, c.name⟩

def Table.records (t : Table) : List Record := t.rows.map (t.refs.zip ·)

def Table.absent (t : Table) : Record := t.refs.map ((·, .null))

/-- The value of a record in a column, absent if it has no such column. -/
def valueIn (r : Record) (c : ColumnRef) : Value := (r.lookup c).getD .null

def partners (j : Join) (t : Table) (r : Record) : List Record :=
  (t.records.map (r ++ ·)).filter fun both =>
    (valueIn both j.left).agrees (valueIn both j.right)

def joined (j : Join) (t : Table) (r : Record) : List Record :=
  match j.kind, partners j t r with
  | .left, [] => [r ++ t.absent]
  | _, found => found

namespace Database

def records (db : Database) (rel : Relation) : Except Fault (List Record × Record) := do
  let t ← db.find rel.table
  rel.joins.foldlM (fun (rs, absent) j => do
    let t ← db.find j.table
    return (rs.flatMap (joined j t), absent ++ t.absent)) (t.records, t.absent)

def check (absent : Record) (args : List Value) (e : Expr) : Except Fault Unit := do
  let _ ← evaluate ⟨args, absent, [absent]⟩ e

def keeps (q : Select) (args : List Value) (r : Record) : Except Fault Bool := do
  let v ← evaluate ⟨args, r, []⟩ q.condition
  return v.truth == some true

def select (db : Database) (q : Select) (args : List Value) : Except Fault Result := do
  let (records, absent) ← db.records q.relation
  let items := q.items.map (·.1)
  (items ++ [q.condition]).forM (check absent args)
  let kept ← records.filterM (keeps q args)
  let row (r : Record) (group : List Record) : Except Fault (List Value) :=
    evaluateAll ⟨args, r, group⟩ items
  let rows ←
    if anyAggregates items then
      (row (kept.getLast?.getD absent) kept).map fun r => [r]
    else kept.mapM fun r => row r []
  return ⟨q.items.map (·.2), rows⟩

end Database

end RequestLog.Relational
