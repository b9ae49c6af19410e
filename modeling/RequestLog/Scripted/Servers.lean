import RequestLog.Scripted.World

/-!
# Servers that follow a script

A server answers a statement by the first reply whose pattern occurs in it, and
where there is none, with nothing. Connecting to a server and opening a file are
looked up under words of their own. Everything is noted before it is answered.
-/

namespace RequestLog.Scripted

open Store

def note (e : Event) : InWorld Unit := modify fun w => { w with events := e :: w.events }

def replyTo (b : Backend) (text : String) : InWorld (Option Reply) := do
  let replies := ((← get).replies.lookup b).getD []
  return replies.find? fun r => Text.occurs r.pattern text

def connectWord : String := "<connect>"

def openWord : String := "<open>"

/-- Notes a statement, which may fail before it is run, and takes the time for it. -/
def receive (b : Backend) (text : String) (e : Event) (mayFailEarly : Bool) :
    InWorld (Option Reply) := do
  match ← replyTo b text with
  | none =>
      note e
      wait shortest
      return none
  | some r =>
      if r.early && mayFailEarly && r.error.isSome then
        note (.prepared b text)
        return some { r with drop := false }
      note e
      wait (max shortest r.delay)
      return some r

/-- A reply as an answer, given what the words for types mean. -/
def answerOf {τ : Type} (type : String → Option τ) (r : Option Reply) : Answer τ :=
  match r with
  | none => .empty
  | some r =>
      let columns := r.columns.filterMap fun (name, word) => (type word).map (name, ·)
      ⟨columns, r.rows⟩

/-! ## PostgreSQL -/

def postgresType (word : String) : Option Postgres.SqlType :=
  [Postgres.SqlType.bool, .int2, .int4, .int8, .float4, .float8, .text, .varchar,
    .timestamp].find? (·.name == word.toUpper)

/-- Errors of a server that may soon be ready, so that connecting is tried again. -/
def passingCodes : List String := ["53300", "57P03"]

def connect (a : Postgres.Address) : ExceptT PoolError InWorld Unit := do
  if (← get).watched then
    note (.connected a)
    modify fun w => { w with watched := false }
  let r ← replyTo .postgres connectWord
  match r.bind (·.error) with
  | some e => throw (if r.any (passingCodes.contains ·.code) then .timedOut else .database e)
  | none => modify fun w => { w with connected := true }

/-- Asks a server, on a new connection where there is none. -/
def ask (a : Postgres.Address) (text : String) (e : Event) (mayFailEarly : Bool) :
    ExceptT PoolError InWorld (Option Reply) := do
  if !(← get).connected then connect a
  let r ← receive .postgres text e mayFailEarly
  if r.any (·.drop) then
    modify fun w => { w with connected := false }
    throw (.io "expected to read 5 bytes, got 0 bytes at EOF")
  match r.bind (·.error) with
  | some e => throw (.database e)
  | none => return r

def postgres : Postgres.Servers InWorld where
  connect a := do
    connect a
    return {
      fetch := fun text args => do
        return answerOf postgresType (← ask a text (.asked text args) true)
      script := fun text => do
        let _ ← ask a text (.ran text) false
      close := pure () }

/-! ## DuckDB -/

def duckdbType : String → Option Duckdb.SqlType
  | "boolean" => some .boolean
  | "integer" => some .integer
  | "bigint" => some .bigint
  | "double" => some .double
  | "varchar" => some .varchar
  | _ => none

/-- A reply, or the error that it consists of. -/
def orError (r : Option Reply) : ExceptT String InWorld (Option Reply) :=
  match r.bind (·.error) with
  | some e => throw e
  | none => pure r

def duckdb : Duckdb.Engine InWorld where
  openFile path := do
    note (.opened path)
    let _ ← orError (← replyTo .duckdb openWord)
    return {
      batch := fun text => do
        let _ ← orError (← receive .duckdb text (.batch text) false)
      fetch := fun text args => do
        let r ← orError (← receive .duckdb text (.queried text args) true)
        return answerOf duckdbType r
      close := note .closed }

/-! ## ClickHouse -/

def clickhouseType (word : String) : Option Clickhouse.SqlType :=
  [Clickhouse.SqlType.bool, .uint8, .int32, .int64, .string].find? (·.name == word)

/-- The body of a reply: its text, or rows where they were asked for. -/
def bodyOf (r : Reply) (typed : Bool) : Clickhouse.Body :=
  match r.body with
  | some text => .text text
  | none =>
      if typed && !r.columns.isEmpty then .typed (answerOf clickhouseType (some r))
      else .text ""

def asksForRows (r : Clickhouse.Request) : Bool :=
  r.params.any (·.2 == Clickhouse.Format.typed.name)

def clickhouse : Clickhouse.Servers InWorld where
  send request := do
    match ← receive .clickhouse request.text (.requested request) false with
    | none => return ⟨200, .text ""⟩
    | some r =>
        if r.drop then throw (.network "client error (SendRequest)")
        match r.error with
        | some e => return ⟨500, .text e⟩
        | none => return ⟨r.status, bodyOf r (asksForRows request)⟩

def surroundings : Surroundings InWorld := ⟨files, clock, disk, postgres, duckdb, clickhouse⟩

end RequestLog.Scripted
