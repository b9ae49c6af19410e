import RequestLog.Store.Clickhouse.Client
import RequestLog.Store.Duckdb.Client
import RequestLog.Store.Postgres.Client
import RequestLog.Store.Sqlite.Client

/-!
# The two stores of a deployment

A deployment has a row store and a column store, each on the backend that the
settings choose. From here on it does not matter which: a store answers queries
for its backend, and can be closed.
-/

namespace RequestLog

structure Surroundings (m : Type → Type) where
  files : Files m
  clock : Clock m
  sqlite : Store.Sqlite.Disk m
  postgres : Store.Postgres.Servers m
  duckdb : Store.Duckdb.Engine m
  clickhouse : Store.Clickhouse.Servers m

inductive RowStore (m : Type → Type) where
  | sqlite (s : Store.Sqlite.Handle m)
  | postgres (s : Store.Postgres.Handle m)

inductive ColumnStore (m : Type → Type) where
  | duckdb (s : Store.Duckdb.Handle m)
  | clickhouse (s : Store.Clickhouse.Handle m)

open Store (Opening)

variable {m : Type → Type} [Monad m]

namespace RowStore

/-- Opens the row store that was chosen; a query may take `limit` milliseconds. -/
def init (o : Surroundings m) (s : Config.Settings) (limit : Nat) :
    Opening m (RowStore m) :=
  match s.rowStore with
  | .sqlite => .sqlite <$> Store.Sqlite.Handle.init o.files o.sqlite o.clock s.sqlitePath limit
  | .postgres =>
      match s.postgres with
      | none => throw (.config "PostgreSQL configuration required")
      | some p => .postgres <$> Store.Postgres.Handle.init o.postgres p limit

def backend : RowStore m → Backend
  | .sqlite _ => .sqlite
  | .postgres _ => .postgres

def executor (clock : Clock m) : RowStore m → Executor m
  | .sqlite s => s.executor clock
  | .postgres s => s.executor clock

def close : RowStore m → m (RowStore m)
  | .sqlite s => .sqlite <$> s.close
  | .postgres s => .postgres <$> s.close

end RowStore

namespace ColumnStore

/-- Opens the column store that was chosen; a query may take `limit` milliseconds. -/
def init (o : Surroundings m) (s : Config.Settings) (limit : Nat) :
    Opening m (ColumnStore m) :=
  match s.columnStore with
  | .duckdb => .duckdb <$> Store.Duckdb.Handle.init o.files o.duckdb s.duckdbPath limit
  | .clickhouse =>
      match s.clickhouse with
      | none => throw (.config "ClickHouse configuration required")
      | some c => .clickhouse <$> Store.Clickhouse.Handle.init o.clickhouse c limit

def backend : ColumnStore m → Backend
  | .duckdb _ => .duckdb
  | .clickhouse _ => .clickhouse

def executor (clock : Clock m) : ColumnStore m → Executor m
  | .duckdb s => s.executor clock
  | .clickhouse s => s.executor clock

/-- Closes the store. It is closed afterwards even if that failed. -/
def close : ColumnStore m → m (Except Store.OpenError Unit × ColumnStore m)
  | .duckdb s => do
      let (ended, s) ← s.close
      return (ended, .duckdb s)
  | .clickhouse s => pure (.ok (), .clickhouse s)

def release : ColumnStore m → m Unit
  | .duckdb s => s.release
  | .clickhouse _ => pure ()

end ColumnStore

end RequestLog
