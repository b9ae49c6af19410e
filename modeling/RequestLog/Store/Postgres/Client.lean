import RequestLog.Store.Answer
import RequestLog.Store.Migration
import RequestLog.Store.Pooled
import RequestLog.Store.Postgres.Address

/-!
# The PostgreSQL row store

A server is given statements with typed arguments and answers with typed columns.
The schema is run as one script that is not a transaction, so a server on which it
failed half way is simply set up again.

Not all types of a server are listed: exact decimals, dates and times of other kinds, bytes
and the rest do not occur in the answers to the statements of this library.
-/

namespace RequestLog.Store.Postgres

inductive Argument where
  | null
  | bool (b : Bool)
  | int4 (i : Int)
  | int8 (i : Int)
  | float8 (x : Float)
  | text (s : String)
  /-- Microseconds since 1970. -/
  | timestamp (micros : Int)

inductive SqlType where
  | bool
  | int2
  | int4
  | int8
  | float4
  | float8
  | text
  | varchar
  | timestamp
  deriving DecidableEq, BEq, Inhabited

def SqlType.name : SqlType → String
  | .bool => "BOOL"
  | .int2 => "INT2"
  | .int4 => "INT4"
  | .int8 => "INT8"
  | .float4 => "FLOAT4"
  | .float8 => "FLOAT8"
  | .text => "TEXT"
  | .varchar => "VARCHAR"
  | .timestamp => "TIMESTAMPTZ"

structure Session (m : Type → Type) where
  fetch : String → List Argument → ExceptT PoolError m (Answer SqlType)
  /-- Runs statements without arguments that stand in one text. -/
  script : String → ExceptT PoolError m Unit
  close : m Unit

structure Servers (m : Type → Type) where
  connect : Address → ExceptT PoolError m (Session m)

/-! ## Arguments -/

/-- Seconds from 1970 to the instant that the server counts from, the year 2000. -/
def epochSeconds : Int := 946684800

/-- Microseconds since 1970; what is left over is cut in the direction of 2000. -/
def micros (t : Instant) : Int :=
  let nanos := (t.seconds - epochSeconds) * 1000000000 + t.nanos
  epochSeconds * 1000000 + Int.tdiv nanos 1000

def bind : Scalar → Option Argument
  | .null => some .null
  | .bool b => some (.bool b)
  | .int i => some (.int8 i)
  | .float x => some (.float8 x)
  | .text s => some (.text s)
  | .timestamp t => some (.timestamp (micros t))
  | .list _ => none

/-! ## Values -/

def wanted : ResultKind → WantedType
  | .int => ⟨optionOf "i32", "INT4"⟩
  | .float => ⟨optionOf "f64", "FLOAT8"⟩
  | .text => ⟨optionOf "alloc::string::String", "TEXT"⟩
  | .bool => ⟨optionOf "bool", "BOOL"⟩

/-- The value of a cell as one of some kind. An absent value has no type. -/
def take (kind : ResultKind) (t : TypedCell SqlType) : Except String Json :=
  match kind, t.type, t.cell with
  | _, _, .null => .ok .null
  | .int, .int8, .int i | .int, .int4, .int i => .ok (.number (.int i))
  | .float, .float8, .real x => .ok (Json.ofFloat x)
  | .text, .text, .text s | .text, .varchar, .text s => .ok (.text s)
  | .bool, .bool, .bool b => .ok (.bool b)
  | kind, type, _ => .error (mismatch (wanted kind) type.name)

def readAnswer (columns : List ResultColumn) (a : Answer SqlType) :
    Except FetchError (List Row) :=
  readCells take columns (a.typedRows.map (·.map fun t => (t.column, t)))

/-- A value that has to be there, in the one type that was asked for. -/
def demand {α : Type} (wanted : WantedType) (read : SqlType → Cell → Option α)
    (a : Answer SqlType) : Except PoolError α :=
  match a.first? with
  | none => .error .noRow
  | some t =>
      match t.cell, read t.type t.cell with
      | .null, _ => .error (.columnDecode 0 "unexpected null; try decoding as an `Option`")
      | _, some v => .ok v
      | _, none => .error (.columnDecode 0 (mismatch wanted t.type.name))

def demandBool : Answer SqlType → Except PoolError Bool :=
  demand ⟨"bool", "BOOL"⟩ fun
    | .bool, .bool b => some b
    | _, _ => none

def demandInt : Answer SqlType → Except PoolError Int :=
  demand ⟨"i32", "INT4"⟩ fun
    | .int4, .int i => some i
    | _, _ => none

/-! ## Setting up -/

def tableQuery : String :=
  "\n        SELECT EXISTS (\n            SELECT FROM information_schema.tables\n"
    ++ "            WHERE table_schema = current_schema()\n"
    ++ "            AND table_name = 'schema_version'\n        )\n        "

def recordText : String :=
  "INSERT INTO schema_version (id, version, applied_at)\n"
    ++ "         VALUES (1, $1, now())\n"
    ++ "         ON CONFLICT (id) DO UPDATE SET version = $1, applied_at = now()"

variable {m : Type → Type} [Monad m]

def opening {α : Type} (act : ExceptT PoolError m α) : Opening m α :=
  act.adapt OpenError.postgres

def schemaAccess (s : Session m) : SchemaAccess m where
  backend := .postgres
  hasVersions := opening do
    let a ← s.fetch tableQuery []
    liftM (demandBool a)
  version := opening do
    let a ← s.fetch versionQuery []
    if a.rows.isEmpty then return none
    some <$> liftM (demandInt a)
  install := do
    for text in Schema.statements .postgres do
      (s.script text).adapt fun e => OpenError.schema .postgres e.message
    let _ ← opening (s.fetch recordText [.int4 Schema.currentVersion])

/-! ## The store -/

structure Handle (m : Type → Type) where
  session : Session m
  pool : Pool
  /-- How many milliseconds a query may take. -/
  limit : Nat
  closed : Bool := false

namespace Handle

def init (servers : Servers m) (settings : Config.PostgresSettings) (limit : Nat) :
    Opening m (Handle m) := do
  let address ← liftM (addressOf settings)
  let session ← opening (servers.connect address)
  (schemaAccess session).migrate
  return { session, pool := poolOf settings, limit }

def asking (s : Handle m) : Asking m Argument (Answer SqlType) where
  backend := .postgres
  bind := bind
  ask text args :=
    if s.closed then pure (.error (.ofPool .postgres .closed))
    else ((s.session.fetch text args).adapt (FetchError.ofPool .postgres)).run
  read := readAnswer

def executor (s : Handle m) (clock : Clock m) : Executor m := s.asking.executor clock s.limit

def close (s : Handle m) : m (Handle m) := do
  if s.closed then return s
  s.session.close
  return { s with closed := true }

end Handle

end RequestLog.Store.Postgres
