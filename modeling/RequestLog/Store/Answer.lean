import RequestLog.Backend

/-!
# Answers of servers

What a server gives back for a statement: its columns, each with a name and a
type that depends on the server, and rows with a cell for every column. Reading
an answer means to find a declared column in a row and to take the value out of
its cell, which is where the servers differ.
-/

namespace RequestLog.Store

inductive Cell where
  | null
  | bool (b : Bool)
  | int (i : Int)
  | real (x : Float)
  | text (s : String)
  deriving BEq, Inhabited

structure Answer (τ : Type) where
  columns : List (String × τ)
  rows : List (List Cell)

def Answer.empty {τ : Type} : Answer τ := ⟨[], []⟩

structure TypedCell (τ : Type) where
  column : String
  type : τ
  cell : Cell

namespace Answer

variable {τ : Type}

def typed (a : Answer τ) (row : List Cell) : List (TypedCell τ) :=
  (a.columns.zip row).map fun ((name, type), cell) => ⟨name, type, cell⟩

def typedRows (a : Answer τ) : List (List (TypedCell τ)) := a.rows.map a.typed

/-- The first cell of the first row, if there is a row that has one. -/
def first? (a : Answer τ) : Option (TypedCell τ) := a.typedRows.head?.bind List.head?

end Answer

end RequestLog.Store
