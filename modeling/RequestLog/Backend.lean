/-!
# Backends

Logs are kept in two layouts. A row store keeps requests, responses and their
properties in tables of their own; a column store keeps two wide tables in which
everything that belongs to a request stands in one row. Each layout is served by
two backends, and each backend speaks its own dialect of SQL.
-/

namespace RequestLog

inductive Family where
  | row
  | column
  deriving DecidableEq, BEq, Inhabited

def Family.name : Family → String
  | .row => "row"
  | .column => "column"

inductive Backend where
  | sqlite
  | postgres
  | duckdb
  | clickhouse
  deriving DecidableEq, BEq, Inhabited

namespace Backend

def all : List Backend := [.sqlite, .postgres, .duckdb, .clickhouse]

def name : Backend → String
  | .sqlite => "sqlite"
  | .postgres => "postgres"
  | .duckdb => "duckdb"
  | .clickhouse => "clickhouse"

def ofName? (s : String) : Option Backend := all.find? (·.name == s)

def family : Backend → Family
  | .sqlite | .postgres => .row
  | .duckdb | .clickhouse => .column

end Backend

inductive RowBackend where
  | sqlite
  | postgres
  deriving DecidableEq, BEq, Inhabited

def RowBackend.backend : RowBackend → Backend
  | .sqlite => .sqlite
  | .postgres => .postgres

inductive ColumnBackend where
  | duckdb
  | clickhouse
  deriving DecidableEq, BEq, Inhabited

def ColumnBackend.backend : ColumnBackend → Backend
  | .duckdb => .duckdb
  | .clickhouse => .clickhouse

end RequestLog
