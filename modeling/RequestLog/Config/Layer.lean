import RequestLog.Config.File

/-!
# Layers of settings

Settings come from several places, and each place may leave any of them open. One
file is laid over another setting by setting, and a section of the upper one that
says nothing changes nothing: that it is there decides no setting. What the files
say together is a `Layer`, and what is given on the command line, where only some
of the settings have an option, lies over it in the same way.
-/

namespace RequestLog.Config

/-! ## A file over another -/

/-- A section laid over another one, or over an empty one where there is none yet. -/
def laidOver {α : Type} (empty : α) (merge : α → α → α) (lower : Option α) :
    Option α → Option α
  | none => lower
  | some upper => some (merge (lower.getD empty) upper)

def PostgresSection.merge (lower upper : PostgresSection) : PostgresSection where
  url := upper.url <|> lower.url
  maxConnections := upper.maxConnections <|> lower.maxConnections
  minConnections := upper.minConnections <|> lower.minConnections
  acquireTimeout := upper.acquireTimeout <|> lower.acquireTimeout
  idleTimeout := upper.idleTimeout <|> lower.idleTimeout
  maxLifetime := upper.maxLifetime <|> lower.maxLifetime
  statementTimeout := upper.statementTimeout <|> lower.statementTimeout

def ClickhouseSection.merge (lower upper : ClickhouseSection) : ClickhouseSection where
  url := upper.url <|> lower.url
  database := upper.database <|> lower.database
  user := upper.user <|> lower.user
  password := upper.password <|> lower.password
  compression := upper.compression <|> lower.compression

/-- The section of an embedded store replaces another one as soon as it has a path. -/
def EmbeddedSection.merge (lower upper : Option EmbeddedSection) : Option EmbeddedSection :=
  (upper.filter (·.path.isSome)) <|> lower

def DatabaseSection.merge (lower upper : DatabaseSection) : DatabaseSection where
  rowStore := upper.rowStore <|> lower.rowStore
  columnStore := upper.columnStore <|> lower.columnStore
  sqlite := EmbeddedSection.merge lower.sqlite upper.sqlite
  duckdb := EmbeddedSection.merge lower.duckdb upper.duckdb
  postgres := laidOver {} PostgresSection.merge lower.postgres upper.postgres
  clickhouse := laidOver {} ClickhouseSection.merge lower.clickhouse upper.clickhouse
  queryTimeout := upper.queryTimeout <|> lower.queryTimeout

def PricingSection.merge (lower upper : PricingSection) : PricingSection where
  rulesPath := upper.rulesPath <|> lower.rulesPath

/-- Keys that name no section stay those of the lower file: nothing is set by them. -/
def File.merge (lower upper : File) : File :=
  { lower with
    database := laidOver {} DatabaseSection.merge lower.database upper.database
    pricing := laidOver {} PricingSection.merge lower.pricing upper.pricing }

/-! ## All places together -/

structure Layer where
  rowStore : Option RowBackend := none
  columnStore : Option ColumnBackend := none
  sqlitePath : Option String := none
  duckdbPath : Option String := none
  postgresUrl : Option String := none
  maxConnections : Option Nat := none
  minConnections : Option Nat := none
  acquireTimeout : Option Nat := none
  idleTimeout : Option Nat := none
  maxLifetime : Option Nat := none
  statementTimeout : Option Nat := none
  clickhouseUrl : Option String := none
  database : Option String := none
  user : Option String := none
  password : Option String := none
  compression : Option Bool := none
  queryTimeout : Option Nat := none
  rulesPath : Option String := none

/-- What the command line gives: the settings that have an option there. -/
structure Overrides where
  rowStore : Option RowBackend := none
  columnStore : Option ColumnBackend := none
  sqlitePath : Option String := none
  duckdbPath : Option String := none
  postgresUrl : Option String := none
  clickhouseUrl : Option String := none
  queryTimeout : Option Nat := none
  rulesPath : Option String := none

namespace Layer

def ofFile (f : File) : Layer :=
  let db := f.database.getD {}
  let pg := db.postgres.getD {}
  let ch := db.clickhouse.getD {}
  { rowStore := db.rowStore
    columnStore := db.columnStore
    sqlitePath := db.sqlite.bind (·.path)
    duckdbPath := db.duckdb.bind (·.path)
    postgresUrl := pg.url
    maxConnections := pg.maxConnections
    minConnections := pg.minConnections
    acquireTimeout := pg.acquireTimeout
    idleTimeout := pg.idleTimeout
    maxLifetime := pg.maxLifetime
    statementTimeout := pg.statementTimeout
    clickhouseUrl := ch.url
    database := ch.database
    user := ch.user
    password := ch.password
    compression := ch.compression
    queryTimeout := db.queryTimeout
    rulesPath := (f.pricing.getD {}).rulesPath }

/-- A layer under what was given on the command line. -/
def under (l : Layer) (given : Overrides) : Layer :=
  { l with
    rowStore := given.rowStore <|> l.rowStore
    columnStore := given.columnStore <|> l.columnStore
    sqlitePath := given.sqlitePath <|> l.sqlitePath
    duckdbPath := given.duckdbPath <|> l.duckdbPath
    postgresUrl := given.postgresUrl <|> l.postgresUrl
    clickhouseUrl := given.clickhouseUrl <|> l.clickhouseUrl
    queryTimeout := given.queryTimeout <|> l.queryTimeout
    rulesPath := given.rulesPath <|> l.rulesPath }

end Layer

end RequestLog.Config
