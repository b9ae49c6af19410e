import RequestLog.Decimal.Whole
import RequestLog.Store.Answer
import RequestLog.Store.Executor

/-!
# Values of the embedded column store

Values are read generously: whatever denotes an integer can be read as one, a
double by cutting its fraction and a text by what it spells. A number that does
not fit is a failure of the store; a value that denotes none has the wrong type,
and is called by the type that it has.

Names of columns do not depend on case, and the first column of a name counts.

The engine has more types than are listed here. Its wider and narrower integers, its decimals,
its floats of single precision, and its dates and times do not occur in the answers to the
statements of this library.
-/

namespace RequestLog.Store.Duckdb

inductive SqlType where
  | boolean
  | integer
  | bigint
  | double
  | varchar
  deriving DecidableEq, BEq, Inhabited

def SqlType.name : SqlType → String
  | .boolean => "Boolean"
  | .integer => "Int"
  | .bigint => "BigInt"
  | .double => "Double"
  | .varchar => "Text"

/-- What messages call the type of a value; an absent one has a type of its own. -/
def typeName (t : TypedCell SqlType) : String :=
  match t.cell with
  | .null => "Null"
  | _ => t.type.name

inductive Misfit where
  | range (i : Int)
  | type
  deriving DecidableEq

def clamp (bits : Nat) (i : Int) : Int :=
  let bound : Int := Decimal.twos (bits - 1)
  max (-bound) (min (bound - 1) i)

def fit (bits : Nat) (i : Int) : Except Misfit Int :=
  if Decimal.fitsSigned bits i then .ok i else .error (.range i)

def widest : Nat := 128

/-- The integer that a double is cut to; not-a-number counts as zero, but never fits. -/
def cut (bits : Nat) (x : Float) : Except Misfit Int :=
  if x.isNaN then .error (.range 0)
  else if x.isInf then
    let beyond : Int := Decimal.twos widest
    .error (.range (clamp widest (if x < 0 then -beyond else beyond)))
  else
    let i := Decimal.truncate x
    if Decimal.fitsSigned bits i then .ok i else .error (.range (clamp widest i))

def spelled (bits : Nat) (s : String) : Except Misfit Int :=
  match Decimal.readInt s with
  | some i => if Decimal.fitsSigned widest i then fit bits i else .error .type
  | none => .error .type

def readWhole (bits : Nat) (t : TypedCell SqlType) : Except Misfit Int :=
  match t.type, t.cell with
  | .integer, .int i | .bigint, .int i => fit bits i
  | .double, .real x => cut bits x
  | .varchar, .text s => spelled bits s
  | _, _ => .error .type

def readBool (t : TypedCell SqlType) : Except Misfit Bool :=
  match t.type, t.cell with
  | .boolean, .bool b => .ok b
  | _, _ => (readWhole 8 t).map (· ≠ 0)

def readDouble (t : TypedCell SqlType) : Except Misfit Float :=
  match t.type, t.cell with
  | .integer, .int i | .bigint, .int i => .ok (Decimal.ofInt i)
  | .double, .real x => .ok x
  | .varchar, .text s =>
      match Decimal.readFloat s with
      | some x => .ok x
      | none => .error .type
  | _, _ => .error .type

def readText (t : TypedCell SqlType) : Except Misfit String :=
  match t.type, t.cell with
  | .varchar, .text s => .ok s
  | _, _ => .error .type

def take (kind : ResultKind) (t : TypedCell SqlType) : Except Misfit Json :=
  match t.cell with
  | .null => .ok .null
  | _ =>
      match kind with
      | .int => (readWhole 64 t).map fun i => .number (.int i)
      | .float => (readDouble t).map Json.ofFloat
      | .text => (readText t).map .text
      | .bool => (readBool t).map .bool

def rangeMessage (i : Int) (index : Nat) : String :=
  s!"Integer {Decimal.intText i} out of range at index {index}"

def folded (name : String) : String := name.map Char.toLower

def readCell (cells : List (TypedCell SqlType)) (c : ResultColumn) :
    Except FetchError Json :=
  let isIt (t : TypedCell SqlType) : Bool := folded t.column == folded c.name
  match cells.find? isIt with
  | none => .error (.decode (.missingColumn c.name))
  | some t =>
      match take c.kind t with
      | .error (.range i) => .error (.ofDuckdb (rangeMessage i (cells.findIdx isIt)))
      | .error .type => .error (.decode (.wrongType t.column c.kind.name (typeName t)))
      | .ok v =>
          match c.allow v with
          | .error e => .error (.decode e)
          | .ok v => .ok v

def readAnswer (columns : List ResultColumn) (a : Answer SqlType) :
    Except FetchError (List Row) :=
  a.typedRows.mapM fun cells => readColumns (readCell cells) columns

end RequestLog.Store.Duckdb
