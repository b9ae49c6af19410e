import RequestLog.Config.File
import RequestLog.Config.Settings
import RequestLog.Json.Print

/-!
# A configuration as data

Sections and settings under the keys by which a configuration file names them.
What is absent is shown as null, so every key is there.
-/

namespace RequestLog.Config

def shown {α : Type} (f : α → Json) : Option α → Json
  | some a => f a
  | none => .null

def shownText : Option String → Json := shown .text

def shownNumber : Option Nat → Json := shown fun n => .number (.int n)

def PostgresSection.toJson (p : PostgresSection) : Json :=
  .object [
    ("url", shownText p.url),
    ("max_connections", shownNumber p.maxConnections),
    ("min_connections", shownNumber p.minConnections),
    ("acquire_timeout_secs", shownNumber p.acquireTimeout),
    ("idle_timeout_secs", shownNumber p.idleTimeout),
    ("max_lifetime_secs", shownNumber p.maxLifetime),
    ("statement_timeout_secs", shownNumber p.statementTimeout)]

def ClickhouseSection.toJson (c : ClickhouseSection) : Json :=
  .object [
    ("url", shownText c.url),
    ("database", shownText c.database),
    ("user", shownText c.user),
    ("password", shownText c.password),
    ("compression", shown .bool c.compression)]

def EmbeddedSection.toJson (e : EmbeddedSection) : Json :=
  .object [("path", shownText e.path)]

def DatabaseSection.toJson (d : DatabaseSection) : Json :=
  .object [
    ("row_store", shownText (d.rowStore.map (·.backend.name))),
    ("column_store", shownText (d.columnStore.map (·.backend.name))),
    ("sqlite", shown (·.toJson) d.sqlite),
    ("duckdb", shown (·.toJson) d.duckdb),
    ("postgres", shown (·.toJson) d.postgres),
    ("clickhouse", shown (·.toJson) d.clickhouse),
    ("query_timeout_secs", shownNumber d.queryTimeout)]

def PricingSection.toJson (p : PricingSection) : Json :=
  .object [("rules_path", shownText p.rulesPath)]

def PostgresSettings.toSection (p : PostgresSettings) : PostgresSection :=
  ⟨p.url, p.maxConnections, p.minConnections, p.acquireTimeout, p.idleTimeout,
    p.maxLifetime, p.statementTimeout⟩

def ClickhouseSettings.toSection (c : ClickhouseSettings) : ClickhouseSection :=
  ⟨c.url, c.database, c.user, c.password, c.compression⟩

def Settings.toJson (s : Settings) : Json :=
  .object [
    ("row_store", .text s.rowStore.backend.name),
    ("column_store", .text s.columnStore.backend.name),
    ("sqlite_path", .text s.sqlitePath),
    ("duckdb_path", .text s.duckdbPath),
    ("postgres", shown (·.toSection.toJson) s.postgres),
    ("clickhouse", shown (·.toSection.toJson) s.clickhouse),
    ("query_timeout_secs", shownNumber s.queryTimeout),
    ("rules_path", shownText s.rulesPath)]

end RequestLog.Config
