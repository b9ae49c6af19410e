import RequestLog.Config.Path
import RequestLog.Store.Service

/-!
# A world to try things in

Surroundings that are kept in memory: files and folders, databases of the embedded
row store, a clock that only moves when something takes time, and scripts by which
servers answer. Everything that a server is asked is noted in the order in which
it arrives.

All of it is one value, so whatever was done can be looked at afterwards, and doing
the same again from the same world ends in the same way.
-/

namespace RequestLog.Scripted

open Store

/-- How a server answers the statements in which a pattern occurs. -/
structure Reply where
  pattern : String
  /-- The columns of the answer, each with the word for its type. -/
  columns : List (String × String) := []
  rows : List (List Cell) := []
  error : Option String := none
  /-- The code of the error, in the words of PostgreSQL. -/
  code : String := ""
  /-- Whether the error comes before the statement is run. -/
  early : Bool := false
  /-- How many milliseconds the answer takes. -/
  delay : Nat := 0
  /-- Whether the connection is closed in place of an answer. -/
  drop : Bool := false
  status : Nat := 200
  body : Option String := none

inductive Event where
  | connected (a : Postgres.Address)
  | asked (text : String) (args : List Postgres.Argument)
  | ran (text : String)
  | opened (path : String)
  | queried (text : String) (args : List Duckdb.Argument)
  | batch (text : String)
  | closed
  | prepared (b : Backend) (text : String)
  | requested (r : Clickhouse.Request)

def Event.backend : Event → Backend
  | .connected _ | .asked .. | .ran _ => .postgres
  | .opened _ | .queried .. | .batch _ | .closed => .duckdb
  | .prepared b _ => b
  | .requested _ => .clickhouse

/-- A place among the files, as the steps from the root. -/
abbrev Place := List String

structure World where
  current : String
  folders : List Place := []
  files : List (Place × String) := []
  databases : List (Place × Relational.Connection) := []
  replies : List (Backend × List Reply) := []
  events : List Event := []
  elapsed : Nat := 0
  /-- Whether somebody else holds all connections to the databases. -/
  held : Bool := false
  connected : Bool := false
  watched : Bool := true

abbrev InWorld := StateM World

/-! ## Time -/

def wait (ms : Nat) : InWorld Unit := modify fun w => { w with elapsed := w.elapsed + ms }

/-- How long every statement takes at least, in milliseconds. -/
def shortest : Nat := 1

def beginning : Instant := ⟨1700000000, 0⟩

def clock : Clock InWorld where
  now := return { beginning with seconds := beginning.seconds + (← get).elapsed / 1000 }
  within limit act := do
    let start := (← get).elapsed
    let result ← act
    return if limit < (← get).elapsed - start then none else some result

/-! ## Files -/

/-- One more step, where dots stand for the place itself and the one above it. -/
def Place.step (p : Place) (s : String) : Place :=
  if s.isEmpty || s == "." then p else if s == ".." then p.dropLast else p ++ [s]

namespace World

def place (w : World) (path : String) : Place :=
  ((Text.splitAt '/' (Config.join w.current path).toList).map String.ofList).foldl
    Place.step []

def isFile (w : World) (p : Place) : Bool :=
  (w.files.lookup p).isSome || (w.databases.lookup p).isSome

/-- A place is a folder when something that is known lies in it. -/
def isFolder (w : World) (p : Place) : Bool :=
  !w.isFile p &&
    (w.place w.current :: w.folders ++ w.files.map (·.1) ++ w.databases.map (·.1)).any
      p.isPrefixOf

def exists? (w : World) (path : String) : Bool :=
  let p := w.place path
  !path.isEmpty && (w.isFolder p || w.isFile p && path.toList.getLast? ≠ some '/')

def read (w : World) (path : String) : Except String String :=
  match w.files.lookup (w.place path) with
  | some text => .ok text
  | none =>
      if w.isFolder (w.place path) then .error "Is a directory (os error 21)"
      else .error "No such file or directory (os error 2)"

/-- The places above a place, the root first. -/
def above (p : Place) : List Place := (List.range p.length).map p.take

def makeFolder (w : World) (path : String) : Except String World :=
  let p := w.place path
  if (above p).any w.isFile then .error "Not a directory (os error 20)"
  else if w.isFile p then .error "File exists (os error 17)"
  else .ok { w with folders := p :: w.folders }

/-- The state of a database; one that was never used is empty. -/
def database (w : World) (p : Place) : Relational.Connection :=
  (w.databases.lookup p).getD { database := {} }

def putDatabase (w : World) (p : Place) (c : Relational.Connection) : World :=
  { w with
    databases := (p, c) :: w.databases.filter (·.1 != p)
    files := w.files.filter (·.1 != p) }

end World

def files : Files InWorld where
  exists? path := return (← get).exists? path
  read path := return (← get).read path
  makeFolder path := do
    match (← get).makeFolder path with
    | .ok w => set w; return .ok ()
    | .error reason => return .error reason

/-! ## Databases -/

/-- How long a connection is waited for, in milliseconds. -/
def acquireTimeout : Nat := 30000

def databaseSession (p : Place) : Sqlite.Session InWorld where
  run st := do
    wait shortest
    if (← get).held then
      wait acquireTimeout
      throw .timedOut
    let (result, c) := ((← get).database p).run st
    modify (·.putDatabase p c)
    match result with
    | .ok r => return r
    | .error f => throw (Sqlite.ofFault f)
  close := pure ()

/-- A file that has a text is no database, and neither is a folder. -/
def disk : Sqlite.Disk InWorld where
  openFile path := do
    let w ← get
    let p := w.place path
    if w.isFolder p then throw (Sqlite.ofFault ⟨14, "unable to open database file"⟩)
    if (w.files.lookup p).any (!·.isEmpty) then
      throw (Sqlite.ofFault ⟨26, "file is not a database"⟩)
    modify fun w => w.putDatabase p (w.database p)
    return databaseSession p

end RequestLog.Scripted
