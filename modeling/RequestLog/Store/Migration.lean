import RequestLog.Schema.Tables
import RequestLog.Store.Error

/-!
# Setting up a store

A store that is opened either has the table of the version or gets the whole
schema. Where the table is there, the version that it records decides: a later
one than ours is refused, and any other is left as it is. An embedded store that
records none is left as it is too, because there the schema and its record are
set up together or not at all; a server is set up once more.
-/

namespace RequestLog.Store

abbrev Opening (m : Type → Type) := ExceptT OpenError m

structure SchemaAccess (m : Type → Type) where
  backend : Backend
  hasVersions : Opening m Bool
  version : Opening m (Option Int)
  install : Opening m Unit

def versionQuery : String := "SELECT version FROM schema_version WHERE id = 1"

/-- Whether a store without a record of its version is set up once more. -/
def repairs (b : Backend) : Bool :=
  match b with
  | .sqlite | .duckdb => false
  | .postgres | .clickhouse => true

def tooNew (b : Backend) (v : Int) : OpenError :=
  .schema b <|
    s!"database schema version {Decimal.intText v} is newer than supported version "
      ++ Decimal.intText Schema.currentVersion

variable {m : Type → Type} [Monad m]

def SchemaAccess.migrate (s : SchemaAccess m) : Opening m Unit := do
  if ← s.hasVersions then
    match ← s.version with
    | some v => if v > Schema.currentVersion then throw (tooNew s.backend v)
    | none => if repairs s.backend then s.install
  else s.install

end RequestLog.Store
