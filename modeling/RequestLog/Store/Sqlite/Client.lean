import RequestLog.Files
import RequestLog.Relational.Connection
import RequestLog.Store.Migration
import RequestLog.Store.Pooled

/-!
# The embedded row store

A database is a file, and the engine that reads it is part of this library. The
schema is set up in a transaction, which is rolled back when anything in it fails.
Every value tells its own type, whatever its column was declared as.
-/

namespace RequestLog.Store.Sqlite

open Relational

structure Session (m : Type → Type) where
  run : Statement → ExceptT PoolError m Result
  close : m Unit

structure Disk (m : Type → Type) where
  openFile : String → ExceptT PoolError m (Session m)

/-- How every connection is set, and how many there may be. -/
def settings : List (String × Value) :=
  [("foreign_keys", .int 1), ("synchronous", .int 1), ("busy_timeout", .int 30000),
   ("cache_size", .int (-64000)), ("temp_store", .int 2), ("journal_mode", .text "wal"),
   ("max_connections", .int 5)]

def ofFault (f : Fault) : PoolError := .database f.message

/-! ## Arguments and values -/

def bind : Scalar → Option Value
  | .null => some .null
  | .bool b => some (.ofBool b)
  | .int i => some (.int i)
  | .float x => some (.ofFloat x)
  | .text s => some (.text s)
  | .timestamp t => some (.int t.micros)
  | .list _ => none

def wanted : ResultKind → WantedType
  | .int | .float => ⟨optionOf "i64", "INTEGER"⟩
  | .text => ⟨optionOf "alloc::string::String", "TEXT"⟩
  | .bool => ⟨optionOf "bool", "BOOLEAN"⟩

/-- A value as one of some kind. An absent value has no type. -/
def take (kind : ResultKind) (v : Value) : Except String Json :=
  match kind, v with
  | _, .null => .ok .null
  | .int, .int i => .ok (.number (.int i))
  | .float, .real x => .ok (Json.ofFloat x)
  | .float, .int i => .ok (Json.ofFloat (Decimal.ofInt i))
  | .text, .text s => .ok (.text s)
  | .bool, .int i => .ok (.bool (i ≠ 0))
  | kind, v => .error (mismatch (wanted kind) v.typeName)

def readResult (columns : List ResultColumn) (r : Result) : Except FetchError (List Row) :=
  readCells take columns (r.rows.map r.names.zip)

/-! ## Setting up -/

def firstValue? (r : Result) : Option Value := r.rows.head?.bind List.head?

/-- The truth in a value, which has to be an integer. -/
def demandBool (v : Value) : Except PoolError Bool :=
  match v with
  | .null => .error (.columnDecode 0 "unexpected null; try decoding as an `Option`")
  | .int i => .ok (i ≠ 0)
  | v => .error (.columnDecode 0 (mismatch ⟨"bool", "BOOLEAN"⟩ v.typeName))

/-- The version in a value, which has to be an integer of 32 bits. -/
def demandVersion (v : Value) : Except PoolError Int :=
  match v with
  | .null => .error (.columnDecode 0 "unexpected null; try decoding as an `Option`")
  | .int i =>
      if Decimal.fitsSigned 32 i then .ok i
      else
        let size := if i < 0 then "small" else "large"
        .error (.columnDecode 0 s!"number too {size} to fit in target type")
  | v => .error (.columnDecode 0 (mismatch ⟨"i32", "INTEGER"⟩ v.typeName))

variable {m : Type → Type} [Monad m]

def opening {α : Type} (act : ExceptT PoolError m α) : Opening m α :=
  act.adapt OpenError.sqlite

def execute (s : Session m) (st : Statement) : Opening m Unit := do
  let _ ← opening (s.run st)

def inTransaction (s : Session m) (act : Opening m Unit) : Opening m Unit := do
  execute s .begin
  try
    act
    execute s .commit
  catch e =>
    let _ ← ExceptT.lift (s.run .rollback).run
    throw e

def record (now : Instant) : Statement :=
  .insert Schema.versionTableName
    [(Schema.slotColumn.name, .int 1),
     (Schema.versionColumn.name, .int Schema.currentVersion),
     (Schema.appliedColumn.name, .int now.micros)]

def schemaAccess (s : Session m) (clock : Clock m) : SchemaAccess m where
  backend := .sqlite
  hasVersions := opening do
    let r ← s.run (.hasTable Schema.versionTableName)
    match firstValue? r with
    | some v => liftM (demandBool v)
    | none => throw .noRow
  version := opening do
    let r ← s.run (.query versionQuery [])
    match firstValue? r with
    | some v => some <$> liftM (demandVersion v)
    | none => return none
  install := inTransaction s do
    let _ ← (s.run (.define (Schema.schema .sqlite))).adapt fun e =>
      OpenError.schema .sqlite e.message
    let now ← clock.now
    execute s (record now)

/-! ## The store -/

structure Handle (m : Type → Type) where
  session : Session m
  /-- How many milliseconds a query may take. -/
  limit : Nat
  closed : Bool := false

namespace Handle

def init (files : Files m) (disk : Disk m) (clock : Clock m) (path : String)
    (limit : Nat) : Opening m (Handle m) := do
  (ExceptT.mk (files.makeRoom path)).adapt OpenError.io
  let session ← opening (disk.openFile path)
  (schemaAccess session clock).migrate
  return { session, limit }

def run (s : Handle m) (st : Statement) : ExceptT PoolError m Result :=
  if s.closed then throw .closed else s.session.run st

def asking (s : Handle m) : Asking m Value Result where
  backend := .sqlite
  bind := bind
  ask text args := ((s.run (.query text args)).adapt (FetchError.ofPool .sqlite)).run
  read := readResult

def executor (s : Handle m) (clock : Clock m) : Executor m := s.asking.executor clock s.limit

def close (s : Handle m) : m (Handle m) := do
  if s.closed then return s
  s.session.close
  return { s with closed := true }

end Handle

end RequestLog.Store.Sqlite
