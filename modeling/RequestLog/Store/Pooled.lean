import RequestLog.Store.Executor

/-!
# Rows of pooled connections

Both row stores are reached through a pool of connections, and rows come out of
it in the same way. A column is found by its exact name, and of several columns
of one name the last one counts. What the pool says when a value has another
type than the one that was asked for names both types in the words of the client.
-/

namespace RequestLog.Store

/-- Names of the types that a client reads values as. -/
def optionOf (type : String) : String := s!"core::option::Option<{type}>"

/-- A type that was asked for, and the word of the database for it. -/
structure WantedType where
  type : String
  sql : String

def mismatch (wanted : WantedType) (actual : String) : String :=
  "mismatched types; Rust type `" ++ wanted.type ++ "` (as SQL type `" ++ wanted.sql
    ++ "`) is not compatible with SQL type `" ++ actual ++ "`"

variable {γ : Type}

/-- The cell under a name, in a row in which a later column hides an earlier one. -/
def cellNamed? (name : String) (cells : List (String × γ)) : Option γ :=
  (cells.reverse.find? (·.1 == name)).map (·.2)

/-- Reads a declared column, given how a value of its kind is taken out of a cell. -/
def readCell (take : ResultKind → γ → Except String Json) (cells : List (String × γ))
    (c : ResultColumn) : Except FetchError Json :=
  match cellNamed? c.name cells with
  | none => .error (.decode (.missingColumn c.name))
  | some cell =>
      match take c.kind cell with
      | .error actual => .error (.decode (.wrongType c.name c.kind.name actual))
      | .ok v =>
          match c.allow v with
          | .error e => .error (.decode e)
          | .ok v => .ok v

def readCells (take : ResultKind → γ → Except String Json) (columns : List ResultColumn)
    (rows : List (List (String × γ))) : Except FetchError (List Row) :=
  rows.mapM fun cells => readColumns (readCell take cells) columns

end RequestLog.Store
