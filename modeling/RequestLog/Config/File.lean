import RequestLog.Backend
import RequestLog.Json.Decode

/-!
# Configuration files

A configuration file is an object with a section for databases and one for
prices. Every setting may be absent, and so may every section. Inside of a
section unknown keys are passed over; at the top they are collected, because
there a misspelt section would go unnoticed with all it holds.
-/

namespace RequestLog.Config

open Json

/-! ## Sections -/

structure PostgresSection where
  url : Option String := none
  maxConnections : Option Nat := none
  minConnections : Option Nat := none
  acquireTimeout : Option Nat := none
  idleTimeout : Option Nat := none
  maxLifetime : Option Nat := none
  statementTimeout : Option Nat := none

structure ClickhouseSection where
  url : Option String := none
  database : Option String := none
  user : Option String := none
  password : Option String := none
  compression : Option Bool := none

structure EmbeddedSection where
  path : Option String := none

structure DatabaseSection where
  rowStore : Option RowBackend := none
  columnStore : Option ColumnBackend := none
  sqlite : Option EmbeddedSection := none
  duckdb : Option EmbeddedSection := none
  postgres : Option PostgresSection := none
  clickhouse : Option ClickhouseSection := none
  queryTimeout : Option Nat := none

structure PricingSection where
  rulesPath : Option String := none

structure File where
  database : Option DatabaseSection := none
  pricing : Option PricingSection := none
  /-- Keys that name no section, in the order in which they first appear. -/
  unknown : List String := []

/-! ## Reading -/

def optional {δ α : Type} (key : String) (read : Decoder α)
    (put : Option α → δ → δ) : Slot δ :=
  ⟨key, fun room t d => (decodeOption read room t).map fun v => put v d⟩

def text : Decoder String := decodeText "a string"

def path : Decoder String := decodeText "path string"

def rowStoreChoice : Choice RowBackend :=
  .constants ["sqlite", "postgres"] fun
    | "sqlite" => some .sqlite
    | "postgres" => some .postgres
    | _ => none

def columnStoreChoice : Choice ColumnBackend :=
  .constants ["duckdb", "clickhouse"] fun
    | "duckdb" => some .duckdb
    | "clickhouse" => some .clickhouse
    | _ => none

def postgresRecord : Record PostgresSection where
  name := "PostgresFileConfig"
  required := 7
  strict := false
  slots := [
    optional "url" text fun v d => { d with url := v },
    optional "max_connections" (decodeUnsigned 32)
      fun v d => { d with maxConnections := v },
    optional "min_connections" (decodeUnsigned 32)
      fun v d => { d with minConnections := v },
    optional "acquire_timeout_secs" (decodeUnsigned 64)
      fun v d => { d with acquireTimeout := v },
    optional "idle_timeout_secs" (decodeUnsigned 64)
      fun v d => { d with idleTimeout := v },
    optional "max_lifetime_secs" (decodeUnsigned 64)
      fun v d => { d with maxLifetime := v },
    optional "statement_timeout_secs" (decodeUnsigned 64)
      fun v d => { d with statementTimeout := v }]

def clickhouseRecord : Record ClickhouseSection where
  name := "ClickhouseFileConfig"
  required := 5
  strict := false
  slots := [
    optional "url" text fun v d => { d with url := v },
    optional "database" text fun v d => { d with database := v },
    optional "user" text fun v d => { d with user := v },
    optional "password" text fun v d => { d with password := v },
    optional "compression" decodeBool fun v d => { d with compression := v }]

def embeddedRecord : Record EmbeddedSection where
  name := "EmbeddedFileConfig"
  required := 1
  strict := false
  slots := [optional "path" path fun v d => { d with path := v }]

def databaseRecord : Record DatabaseSection where
  name := "DatabaseFileConfig"
  required := 7
  strict := false
  slots := [
    optional "row_store" rowStoreChoice.decode fun v d => { d with rowStore := v },
    optional "column_store" columnStoreChoice.decode
      fun v d => { d with columnStore := v },
    optional "sqlite" (embeddedRecord.decode {}) fun v d => { d with sqlite := v },
    optional "duckdb" (embeddedRecord.decode {}) fun v d => { d with duckdb := v },
    optional "postgres" (postgresRecord.decode {}) fun v d => { d with postgres := v },
    optional "clickhouse" (clickhouseRecord.decode {})
      fun v d => { d with clickhouse := v },
    optional "query_timeout_secs" (decodeUnsigned 64)
      fun v d => { d with queryTimeout := v }]

def pricingRecord : Record PricingSection where
  name := "PricingFileConfig"
  required := 1
  strict := false
  slots := [optional "rules_path" path fun v d => { d with rulesPath := v }]

/-- A key that names no section is kept, once, after its value was found to be sound. -/
def File.note (key : String) (room : Nat) (t : Tree) (f : File) : Except Fault File :=
  (decodeJson room t).map fun _ =>
    if f.unknown.contains key then f else { f with unknown := f.unknown ++ [key] }

def fileRecord : Record File where
  name := "FileConfig"
  required := 2
  strict := false
  rest := some File.note
  slots := [
    optional "database" (databaseRecord.decode {}) fun v d => { d with database := v },
    optional "pricing" (pricingRecord.decode {}) fun v d => { d with pricing := v }]

def File.parse (text : String) : Except Fault File :=
  decodeWhole (fileRecord.decode {}) text

end RequestLog.Config
