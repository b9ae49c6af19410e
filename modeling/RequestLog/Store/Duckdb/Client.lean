import RequestLog.Files
import RequestLog.Store.Duckdb.Value
import RequestLog.Store.Migration

/-!
# The embedded column store

A database is a file that is opened by one connection. The schema is set up in a
transaction, which is rolled back when anything in it fails; a connection on which
the store could not be set up is closed again. A version that cannot be read is
taken for none.

Closing writes back what is still in the log. The connection is given up before it is
closed, so nothing can be asked of a store after that, even if closing it failed.
-/

namespace RequestLog.Store.Duckdb

inductive Argument where
  | null
  | boolean (b : Bool)
  | integer (i : Int)
  | bigint (i : Int)
  | double (x : Float)
  | varchar (s : String)

/-- An open connection. Failures are the words of the engine. -/
structure Session (m : Type → Type) where
  /-- Runs statements without arguments that stand in one text. -/
  batch : String → ExceptT String m Unit
  fetch : String → List Argument → ExceptT String m (Answer SqlType)
  close : ExceptT String m Unit

structure Engine (m : Type → Type) where
  openFile : String → ExceptT String m (Session m)

def bind : Scalar → Option Argument
  | .null => some .null
  | .bool b => some (.boolean b)
  | .int i => some (.bigint i)
  | .float x => some (.double x)
  | .text s => some (.varchar s)
  | .timestamp t => some (.bigint t.micros)
  | .list _ => none

/-! ## Setting up -/

/-- Keeps the engine from fetching extensions, and has it write back its log. -/
def preparation : String :=
  "SET autoinstall_known_extensions = false;\n"
    ++ "                 SET autoload_known_extensions = false;\n"
    ++ "                 PRAGMA enable_checkpoint_on_shutdown;"

def tableQuery : String :=
  "SELECT COUNT(*) > 0 FROM information_schema.tables"
    ++ " WHERE table_name = 'schema_version'"

def recordText : String :=
  "INSERT INTO schema_version (id, version, applied_at) VALUES (1, ?, current_timestamp)"

def demand {α : Type} (read : TypedCell SqlType → Except Misfit α) (a : Answer SqlType) :
    Except String α :=
  match a.first? with
  | none => .error "Query returned no rows"
  | some t =>
      match read t with
      | .ok v => .ok v
      | .error (.range i) => .error (rangeMessage i 0)
      | .error .type =>
          .error s!"Invalid column type {typeName t} at index: 0, name: {t.column}"

variable {m : Type → Type} [Monad m]

def opening {α : Type} (act : ExceptT String m α) : Opening m α :=
  act.adapt OpenError.duckdb

def inTransaction (s : Session m) (act : Opening m Unit) : Opening m Unit := do
  opening (s.batch "BEGIN TRANSACTION")
  try act
  catch e =>
    let _ ← ExceptT.lift (s.batch "ROLLBACK").run
    throw e
  opening (s.batch "COMMIT")

def schemaAccess (s : Session m) : SchemaAccess m where
  backend := .duckdb
  hasVersions := opening do
    let a ← s.fetch tableQuery []
    liftM (demand readBool a)
  version := do
    match ← ExceptT.lift (s.fetch versionQuery []).run with
    | .ok a => return (demand (readWhole 32) a).toOption
    | .error _ => return none
  install := inTransaction s do
    for text in Schema.statements .duckdb do
      (s.batch text).adapt (OpenError.schema .duckdb)
    let _ ← opening (s.fetch recordText [.integer Schema.currentVersion])

/-! ## The store -/

structure Handle (m : Type → Type) where
  session : Session m
  /-- How many milliseconds a query may take. -/
  limit : Nat
  closed : Bool := false

namespace Handle

def init (files : Files m) (engine : Engine m) (path : String) (limit : Nat) :
    Opening m (Handle m) := do
  (ExceptT.mk (files.makeRoom path)).adapt OpenError.io
  let session ← opening (engine.openFile path)
  try
    opening (session.batch preparation)
    (schemaAccess session).migrate
  catch e =>
    let _ ← ExceptT.lift session.close.run
    throw e
  return { session, limit }

def withSession {α : Type} (s : Handle m) (act : Session m → ExceptT FetchError m α) :
    ExceptT FetchError m α :=
  if s.closed then throw (.unavailable .duckdb "connection closed") else act s.session

def ask (s : Handle m) (text : String) (args : List Argument) :
    ExceptT FetchError m (Answer SqlType) :=
  s.withSession fun session => (session.fetch text args).adapt FetchError.ofDuckdb

/-- Does something with the store that has to be done in time. -/
def run {α : Type} (s : Handle m) (clock : Clock m) (act : ExceptT FetchError m α) :
    ExceptT FetchError m α :=
  ExceptT.mk (inTime clock .duckdb s.limit act.run)

def brokenOff (reason : String) : FetchError := .ofDuckdb s!"query task failed: {reason}"

def asking (s : Handle m) : Asking m Argument (Answer SqlType) where
  backend := .duckdb
  bind := bind
  ask text args := (s.ask text args).run
  read := readAnswer

def executor (s : Handle m) (clock : Clock m) : Executor m := s.asking.executor clock s.limit

/-- Writes back the log, which may fail, and closes the connection, which may fail too;
one that is closed stays so. -/
def close (s : Handle m) : m (Except OpenError Unit × Handle m) := do
  if s.closed then return (.ok (), s)
  let _ ← (s.session.fetch "CHECKPOINT" []).run
  let ended ← (opening s.session.close).run
  return (ended, { s with closed := true })

/-- Lets go of the store without writing anything back. -/
def release (s : Handle m) : m Unit := do
  if s.closed then return
  let _ ← s.session.close.run

end Handle

end RequestLog.Store.Duckdb
