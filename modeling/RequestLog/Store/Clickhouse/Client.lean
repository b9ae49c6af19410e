import RequestLog.Config.Settings
import RequestLog.Store.Clickhouse.Status
import RequestLog.Store.Clickhouse.Template
import RequestLog.Store.Executor
import RequestLog.Store.Migration
import RequestLog.Store.Answer
import RequestLog.Text.Url

/-!
# The ClickHouse column store

Every statement is one request over HTTP, so there is no connection to keep and
nothing to close. A refusal carries the reason as its text. Queries are answered
as a stream of JSON objects; while the store is set up, two values are asked for
in the typed form of the server.
-/

namespace RequestLog.Store.Clickhouse

inductive SqlType where
  | bool
  | uint8
  | int32
  | int64
  | string
  deriving DecidableEq, BEq, Inhabited

def SqlType.name : SqlType → String
  | .bool => "Bool"
  | .uint8 => "UInt8"
  | .int32 => "Int32"
  | .int64 => "Int64"
  | .string => "String"

inductive Format where
  | typed
  | objects
  deriving DecidableEq

def Format.name : Format → String
  | .typed => "RowBinaryWithNamesAndTypes"
  | .objects => "JSONEachRow"

structure Request where
  url : Text.Url
  text : String
  /-- What is said in the address beside the text. -/
  params : List (String × String)
  user : Option String
  password : Option String

inductive Body where
  | text (s : String)
  | typed (a : Answer SqlType)

structure Response where
  status : Nat
  body : Body

/-- The servers that can be reached; nothing but the way to them can fail. -/
structure Servers (m : Type → Type) where
  send : Request → ExceptT HttpError m Response

/-! ## Requests -/

def request (s : Config.ClickhouseSettings) (format : Option Format) (text : String)
    (args : List Argument) : Except HttpError Request :=
  match fill text.toList args with
  | .error e => .error (.invalidParams e.message)
  | .ok filled =>
      match Text.Url.parse s.url with
      | .error f => .error (.invalidParams f.message)
      | .ok url => .ok {
          url
          text := String.ofList filled
          params :=
            [("database", s.database), ("compress", "1"),
             ("output_format_json_quote_64bit_integers", "0")]
            ++ (format.map fun f => ("default_format", f.name)).toList
          user := s.user
          password := s.password }

/-- The reason at the end of a text that the server broke off while it sent it. -/
def brokenOff? (text : String) : Option String := do
  let cs := text.toList
  if !"))\n".toList.isSuffixOf cs then none
  let found ← Text.lastFrom? "Code:".toList cs
  let reason := String.ofList found.dropLast
  if Text.occurs "DB::Exception:" reason then some reason else none

def Response.accepted (r : Response) : Except HttpError Body :=
  if r.status = 200 then
    match r.body with
    | .typed a => .ok (.typed a)
    | .text s =>
        match brokenOff? s with
        | some reason => .error (.badResponse reason)
        | none => .ok (.text s)
  else
    let reason := match r.body with
      | .text s => Text.trimmed s
      | .typed _ => ""
    .error (.badResponse (if reason.isEmpty then statusText r.status else reason))

variable {m : Type → Type} [Monad m]

def send (servers : Servers m) (s : Config.ClickhouseSettings) (format : Option Format)
    (text : String) (args : List Argument) : ExceptT HttpError m Body := do
  let r ← liftM (request s format text args)
  let response ← servers.send r
  liftM response.accepted

def execute (servers : Servers m) (s : Config.ClickhouseSettings) (text : String)
    (args : List Argument) : ExceptT HttpError m Unit := do
  let _ ← send servers s none text args

/-! ## Setting up -/

/-- What is said of a value whose type is not the one that was asked for. -/
def mismatch {α : Type} (wanted : String) (t : TypedCell SqlType) : Except HttpError α :=
  .error <| .schemaMismatch <|
    "While processing row as a primitive: attempting to (de)serialize ClickHouse type "
      ++ s!"{t.type.name} as {wanted} which is not compatible"

/-- Truth is sent as a byte, which has to be zero or one. -/
def demandBool (t : TypedCell SqlType) : Except HttpError Bool :=
  match t.type, t.cell with
  | .bool, .bool b => .ok b
  | .uint8, .int 0 => .ok false
  | .uint8, .int 1 => .ok true
  | .uint8, .int _ => .error (.other "tag for enum is not valid")
  | _, _ => mismatch "bool" t

def demandInt (t : TypedCell SqlType) : Except HttpError Int :=
  match t.type, t.cell with
  | .int32, .int i => .ok i
  | _, _ => mismatch "i32" t

def firstValue {α : Type} (read : TypedCell SqlType → Except HttpError α) :
    Body → Except HttpError (Option α)
  | .text _ => .error (.badResponse "Could not read columns header")
  | .typed a =>
      match a.first? with
      | some t => (read t).map some
      | none => .ok none

def tableQuery : String :=
  "SELECT count() > 0 FROM system.tables"
    ++ " WHERE database = currentDatabase() AND name = 'schema_version'"

/-- The version on record, as the last of the rows that are still to be merged. -/
def mergedVersionQuery : String := "SELECT version FROM schema_version FINAL WHERE id = 1"

def recordText : String :=
  "INSERT INTO schema_version (id, version, applied_at) VALUES (?, ?, now64(6))"

def opening {α : Type} (act : ExceptT HttpError m α) : Opening m α :=
  act.adapt OpenError.clickhouse

def schemaAccess (servers : Servers m) (s : Config.ClickhouseSettings) : SchemaAccess m where
  backend := .clickhouse
  hasVersions := opening do
    let body ← send servers s (some .typed) tableQuery []
    match ← liftM (firstValue demandBool body) with
    | some there => return there
    | none => throw .noRow
  version := opening do
    let body ← send servers s (some .typed) mergedVersionQuery []
    liftM (firstValue demandInt body)
  install := do
    for text in Schema.statements .clickhouse do
      (execute servers s text []).adapt fun e => OpenError.schema .clickhouse e.message
    opening (execute servers s recordText [.int 1, .int Schema.currentVersion])

/-! ## The store -/

structure Handle (m : Type → Type) where
  servers : Servers m
  settings : Config.ClickhouseSettings
  /-- How many milliseconds a query may take. -/
  limit : Nat

namespace Handle

def init (servers : Servers m) (settings : Config.ClickhouseSettings) (limit : Nat) :
    Opening m (Handle m) := do
  if settings.url.isEmpty then throw (.config "ClickHouse URL is required")
  (schemaAccess servers settings).migrate
  return { servers, settings, limit }

def health (s : Handle m) : Opening m Unit :=
  opening (execute s.servers s.settings "SELECT 1" [])

/-- Rows of objects; the typed form is no JSON from its first byte on. -/
def readBody (columns : List ResultColumn) : Body → Except FetchError (List Row)
  | .typed _ => .error (.decode (.shape Json.Fault.expectedValue.message))
  | .text s =>
      match readRows columns s with
      | .error e => .error (.decode e)
      | .ok rows => .ok rows

def asking (s : Handle m) : Asking m Argument Body where
  backend := .clickhouse
  bind := bind
  ask text args :=
    ((send s.servers s.settings (some .objects) text args).adapt FetchError.ofHttp).run
  read := readBody

def executor (s : Handle m) (clock : Clock m) : Executor m := s.asking.executor clock s.limit

end Handle

end RequestLog.Store.Clickhouse
