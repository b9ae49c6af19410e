import RequestLog.Config.Layer
import RequestLog.Config.Path

/-!
# Settings

What the layers leave open gets a default, and what is left are settings. The
settings of a server are there exactly when its backend was chosen. Whether the
stores that they name can be opened at all is asked when they are loaded.
-/

namespace RequestLog.Config

structure PostgresSettings where
  url : String
  maxConnections : Nat
  minConnections : Nat
  /-- Timeouts and lifetimes are in seconds, and zero means none. -/
  acquireTimeout : Nat
  idleTimeout : Nat
  maxLifetime : Nat
  statementTimeout : Nat
  deriving DecidableEq

structure ClickhouseSettings where
  url : String
  database : String
  user : Option String
  password : Option String
  compression : Bool
  deriving DecidableEq

structure Settings where
  rowStore : RowBackend
  columnStore : ColumnBackend
  sqlitePath : String
  duckdbPath : String
  postgres : Option PostgresSettings
  clickhouse : Option ClickhouseSettings
  /-- How many seconds a query may take. -/
  queryTimeout : Nat
  rulesPath : Option String

/-! ## Defaults -/

def folderName : String := "RequestLens"
def sqliteFileName : String := "requestlens.db"
def duckdbFileName : String := "requestlens.duckdb"
def defaultDatabase : String := "requestlens"
def defaultQueryTimeout : Nat := 30

def postgresDefaults : PostgresSettings where
  url := ""
  maxConnections := 20
  minConnections := 2
  acquireTimeout := 30
  idleTimeout := 600
  maxLifetime := 1800
  statementTimeout := 60

namespace Layer

def postgres (l : Layer) : PostgresSettings :=
  let d := postgresDefaults
  { url := l.postgresUrl.getD d.url
    maxConnections := l.maxConnections.getD d.maxConnections
    minConnections := l.minConnections.getD d.minConnections
    acquireTimeout := l.acquireTimeout.getD d.acquireTimeout
    idleTimeout := l.idleTimeout.getD d.idleTimeout
    maxLifetime := l.maxLifetime.getD d.maxLifetime
    statementTimeout := l.statementTimeout.getD d.statementTimeout }

def clickhouse (l : Layer) : ClickhouseSettings where
  url := l.clickhouseUrl.getD ""
  database := l.database.getD defaultDatabase
  user := l.user
  password := l.password
  compression := l.compression.getD true

/-- A path that was given, or a file in the directory of data. -/
def dataFile (p : Places) (given : Option String) (name : String) : String :=
  match given with
  | some path => p.expand path
  | none => join (join p.data folderName) name

def settings (l : Layer) (p : Places) : Settings :=
  let rowStore := l.rowStore.getD .sqlite
  let columnStore := l.columnStore.getD .duckdb
  { rowStore
    columnStore
    sqlitePath := dataFile p l.sqlitePath sqliteFileName
    duckdbPath := dataFile p l.duckdbPath duckdbFileName
    postgres := if rowStore = .postgres then some l.postgres else none
    clickhouse := if columnStore = .clickhouse then some l.clickhouse else none
    queryTimeout := l.queryTimeout.getD defaultQueryTimeout
    rulesPath := l.rulesPath.map p.expand }

end Layer

/-- What the files say together, under what was given, with the defaults below both. -/
def resolve (p : Places) (file : File) (given : Overrides) : Settings :=
  ((Layer.ofFile file).under given).settings p

end RequestLog.Config
