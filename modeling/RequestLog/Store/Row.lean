import RequestLog.Json.Bytes
import RequestLog.Json.Decode
import RequestLog.Json.Print
import RequestLog.Sql.Query
import RequestLog.Store.Error

/-!
# Rows and their columns

A query is asked together with the columns that its rows are expected to have.
A row holds those columns and no others, each with a value of the declared kind,
or null where null was declared to be possible.

Stores that answer in JSON may widen a number or write it as a text, so reading
a value accepts what denotes a value of the kind (`ResultColumn.read`) and stores
it in the one form that the kind has.
-/

namespace RequestLog.Store

inductive ResultKind where
  | int
  | float
  | text
  | bool
  deriving DecidableEq, BEq, Inhabited

namespace ResultKind

def all : List ResultKind := [.int, .float, .text, .bool]

def name : ResultKind → String
  | .int => "int"
  | .float => "float"
  | .text => "text"
  | .bool => "bool"

def ofName? (s : String) : Option ResultKind := all.find? (·.name == s)

end ResultKind

structure ResultColumn where
  name : String
  kind : ResultKind
  nullable : Bool := false
  deriving DecidableEq, Inhabited

abbrev Row := List (String × Json)

namespace ResultColumn

/-- A value that may only be null where the column may be. -/
def allow (c : ResultColumn) (v : Json) : Except DecodeError Json :=
  match v with
  | .null => if c.nullable then .ok .null else .error (.unexpectedNull c.name)
  | v => .ok v

/-- The value in the form of a kind, if it denotes one of that kind. -/
def convert? (k : ResultKind) (v : Json) : Option Json :=
  match k, v with
  | _, .null => some .null
  | .int, .number n => n.int64?.map fun i => .number (.int i)
  | .int, .text s => (Decimal.readInt64 s).map fun i => .number (.int i)
  | .float, .number n => some (Json.ofFloat n.toFloat)
  | .float, .text s => (Decimal.readFloat s).map Json.ofFloat
  | .text, .text s => some (.text s)
  | .bool, .bool b => some (.bool b)
  | .bool, .number (.int 0) => some (.bool false)
  | .bool, .number (.int 1) => some (.bool true)
  | _, _ => none

def wrongType {α : Type} (c : ResultColumn) (actual : String) : Except DecodeError α :=
  .error (.wrongType c.name c.kind.name actual)

/-- Reads the column from what the store gave for it, if it gave anything. -/
def read (c : ResultColumn) : Option Json → Except DecodeError Json
  | none => .error (.missingColumn c.name)
  | some v =>
      match convert? c.kind v with
      | some w => c.allow w
      | none => c.wrongType v.compact

end ResultColumn

/-- The declared columns of one row, read in their order up to the first bad one. -/
def readColumns {ε : Type} (read : ResultColumn → Except ε Json)
    (columns : List ResultColumn) : Except ε Row :=
  columns.foldlM (fun row c => (read c).map fun v => Json.put c.name v row) []

def readRow (columns : List ResultColumn) (values : Row) : Except DecodeError Row :=
  readColumns (fun c => c.read (Json.get? c.name values)) columns

/-! ## Rows as a stream of JSON -/

def rowOf (columns : List ResultColumn) (t : Json.Tree) : Except DecodeError Row :=
  match Json.decodeObject Json.nestingRoom t with
  | .error f => .error (.shape f.message)
  | .ok values => readRow columns values

/--
Rows that stand one behind the other as objects, up to the first bad one. They come as bytes,
which need not be a text.
-/
def readRowBytes (columns : List ResultColumn) (body : List UInt8) :
    Except DecodeError (List Row) :=
  (Json.forest (Json.tokensOfBytes body)).mapM (rowOf columns)

def readRows (columns : List ResultColumn) (body : String) :
    Except DecodeError (List Row) :=
  readRowBytes columns body.toUTF8.data.toList

end RequestLog.Store

namespace RequestLog

/-- A store answers queries that were compiled for it and no others. -/
def Query.admittedBy (q : Query) (executor : Backend) :
    Except Store.FetchError Unit :=
  if q.backend = executor then .ok () else .error (.dialect q.backend executor)

end RequestLog
