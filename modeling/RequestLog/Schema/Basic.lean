import RequestLog.Backend
import RequestLog.Sql.Expr

/-!
# Definitions of stored tables

A schema is a list of tables and indexes. What a column holds is said once
(`StoredType`), and each backend has its own word for it. Column stores that
name an engine mark the columns that may be empty; all others mark those that
may not.

The text of a definition is laid out one column a line, and an index that does
not fit into a line of eighty is broken before its table.
-/

namespace RequestLog.Schema

inductive StoredType where
  | text
  | count
  | instant
  /-- The number of a row in a table that has at most one. -/
  | slot
  | version
  deriving DecidableEq, BEq, Inhabited

def StoredType.word (b : Backend) : StoredType → String
  | .text => match b with
      | .sqlite | .postgres => "TEXT"
      | .duckdb => "VARCHAR"
      | .clickhouse => "String"
  | .count => match b with
      | .sqlite => "INTEGER"
      | .postgres | .duckdb => "BIGINT"
      | .clickhouse => "Int64"
  | .instant => match b with
      | .sqlite => "INTEGER"
      | .postgres => "TIMESTAMPTZ"
      | .duckdb => "TIMESTAMP"
      | .clickhouse => "DateTime64(6, 'UTC')"
  | .slot => match b with
      | .clickhouse => "UInt8"
      | _ => "INTEGER"
  | .version => match b with
      | .clickhouse => "Int32"
      | _ => "INTEGER"

structure StoredColumn where
  name : String
  type : StoredType
  nullable : Bool := false
  /-- Whether the column alone is the key of its table. -/
  key : Bool := false
  /-- The only value that the column admits, if it is held to one. -/
  only : Option Int := none
  /-- The column of another table in which every value has to occur. -/
  references : Option Sql.ColumnRef := none
  deriving DecidableEq

/-- How a column store keeps the rows of a table. -/
structure Engine where
  name : String
  partition : Option String := none
  order : String
  deriving DecidableEq

structure StoredTable where
  name : String
  columns : List StoredColumn
  /-- The columns that are the key together; none when one column is the key alone. -/
  key : List String := []
  engine : Option Engine := none
  deriving DecidableEq

structure Index where
  name : String
  table : String
  columns : List String
  deriving DecidableEq

inductive Definition where
  | table (t : StoredTable)
  | index (i : Index)
  deriving DecidableEq

/-! ## Looking up -/

def StoredTable.column? (t : StoredTable) (name : String) : Option StoredColumn :=
  t.columns.find? (·.name == name)

def StoredTable.keyColumns (t : StoredTable) : List String :=
  (t.columns.filter (·.key)).map (·.name) ++ t.key

def tables (schema : List Definition) : List StoredTable :=
  schema.filterMap fun
    | .table t => some t
    | .index _ => none

def indexes (schema : List Definition) : List Index :=
  schema.filterMap fun
    | .table _ => none
    | .index i => some i

/-! ## Texts -/

def StoredColumn.text (b : Backend) (c : StoredColumn) : String :=
  let type := c.type.word b
  match b with
  | .clickhouse => s!"{c.name} " ++ (if c.nullable then s!"Nullable({type})" else type)
  | _ =>
      String.intercalate " " <|
        [c.name, type]
        ++ (if c.nullable || c.key then [] else ["NOT NULL"])
        ++ (if c.key then ["PRIMARY KEY"] else [])
        ++ (c.only.map fun i => s!"CHECK ({c.name} = {Decimal.intText i})").toList
        ++ (c.references.map fun r =>
            s!"REFERENCES {r.table} ({r.column}) ON DELETE CASCADE").toList

/-- Lines that are separated by commas, each behind a margin. -/
def lines (margin : String) (parts : List String) : String :=
  String.intercalate ",\n" (parts.map (margin ++ ·))

def StoredTable.text (b : Backend) (t : StoredTable) : String :=
  let columns := t.columns.map (·.text b)
  let head := s!"CREATE TABLE IF NOT EXISTS {t.name} (\n"
  match t.engine with
  | none =>
      let key :=
        if t.key.isEmpty then [] else [s!"PRIMARY KEY ({Sql.commaList t.key})"]
      head ++ lines "    " (columns ++ key) ++ "\n);"
  | some e =>
      let partition := match e.partition with
        | some p => s!"\n    PARTITION BY {p}"
        | none => ""
      head ++ lines "        " columns
        ++ s!"\n    ) ENGINE = {e.name}{partition}\n    ORDER BY {e.order}"

def lineWidth : Nat := 80

def Index.text (i : Index) : String :=
  let head := s!"CREATE INDEX IF NOT EXISTS {i.name}"
  let rest := s!"ON {i.table} ({Sql.commaList i.columns});"
  let line := s!"{head} {rest}"
  if line.length ≤ lineWidth then line else s!"{head}\n    {rest}"

def Definition.text (b : Backend) : Definition → String
  | .table t => t.text b
  | .index i => i.text

def script (b : Backend) (schema : List Definition) : String :=
  "\n" ++ String.intercalate "\n\n" (schema.map (·.text b)) ++ "\n"

end RequestLog.Schema
