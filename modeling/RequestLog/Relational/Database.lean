import RequestLog.Relational.Evaluate
import RequestLog.Schema.Basic

/-!
# Tables and their rows

A database holds tables with the definitions that they were made from. Every row
that is inserted is held to its definition: columns that have to be there, the one
value that a column admits, the key, and the columns of other tables that a value
has to occur in. They are looked at in this order, and a row that fails one is not
inserted.

A key of one integer column is the number of its row; where it is left out, the
next number is taken.
-/

namespace RequestLog.Relational

open Schema

structure Table where
  definition : StoredTable
  /-- The values of each row in the order of the columns. -/
  rows : List (List Value)

structure Database where
  tables : List Table := []
  indexes : List Index := []

namespace Database

def table? (db : Database) (name : String) : Option Table :=
  db.tables.find? (·.definition.name == name)

def find (db : Database) (name : String) : Except Fault Table :=
  match db.table? name with
  | some t => .ok t
  | none => fault s!"no such table: {name}"

def withRows (db : Database) (name : String) (rows : List (List Value)) : Database :=
  { db with tables := db.tables.map fun t =>
      if t.definition.name == name then { t with rows } else t }

/-! ## Definitions -/

def defineIndex (db : Database) (i : Index) : Except Fault Database := do
  if db.indexes.any (·.name == i.name) then return db
  let t ← db.find i.table
  match i.columns.find? fun c => (t.definition.column? c).isNone with
  | some c => fault s!"no such column: {c}"
  | none => return { db with indexes := db.indexes ++ [i] }

/-- Makes what is defined, unless something of its name is there. -/
def define (db : Database) : Definition → Except Fault Database
  | .table t =>
      if (db.table? t.name).isSome then .ok db
      else .ok { db with tables := db.tables ++ [⟨t, []⟩] }
  | .index i => db.defineIndex i

end Database

/-! ## Rows -/

def affinity : StoredType → Value.Affinity
  | .text => .text
  | _ => .integer

namespace Table

def columns (t : Table) : List StoredColumn := t.definition.columns

def value (t : Table) (row : List Value) (column : String) : Value :=
  row.getD (t.columns.findIdx (·.name == column)) .null

def qualified (t : Table) (columns : List String) : String :=
  Sql.commaList (columns.map fun c => s!"{t.definition.name}.{c}")

def isRowNumber (c : StoredColumn) : Bool := c.key && affinity c.type == .integer

def nextNumber (t : Table) (c : StoredColumn) : Int :=
  t.rows.foldl (fun n row =>
    match t.value row c.name with
    | .int i => max n (i + 1)
    | _ => n) 1

/-- A value in the form in which a column keeps it. -/
def keep (t : Table) (c : StoredColumn) (given : Option Value) : Except Fault Value :=
  let v := (given.getD .null).prefer (affinity c.type)
  if isRowNumber c then
    match v with
    | .null => .ok (.int (t.nextNumber c))
    | .int i => .ok (.int i)
    | _ => .error ⟨20, "datatype mismatch"⟩
  else .ok v

def checkPresent (t : Table) (row : List Value) : Except Fault Unit :=
  match t.columns.find? fun c => !c.nullable && !c.key && (t.value row c.name).isNull with
  | some c => .error ⟨1299, s!"NOT NULL constraint failed: {t.qualified [c.name]}"⟩
  | none => .ok ()

/-- Every column that admits one value has that value or none. -/
def checkOnly (t : Table) (row : List Value) : Except Fault Unit :=
  let violates (c : StoredColumn) : Bool :=
    match c.only with
    | some i => compareTruth .eq (t.value row c.name) (.int i) == some false
    | none => false
  match t.columns.find? violates with
  | some c =>
      let only := Decimal.intText (c.only.getD 0)
      .error ⟨275, s!"CHECK constraint failed: {c.name} = {only}"⟩
  | none => .ok ()

/-- No other row has the same key. -/
def checkKey (t : Table) (row : List Value) : Except Fault Unit :=
  let key := t.definition.keyColumns
  let same (other : List Value) : Bool :=
    key.all fun c => (t.value row c).agrees (t.value other c)
  if !key.isEmpty && t.rows.any same then
    .error ⟨1555, s!"UNIQUE constraint failed: {t.qualified key}"⟩
  else .ok ()

end Table

namespace Database

/-- Every value that has to occur in another table does. -/
def checkReferences (db : Database) (t : Table) (row : List Value) : Except Fault Unit :=
  let occurs (v : Value) (c : Sql.ColumnRef) : Bool :=
    (db.table? c.table).any fun other =>
      other.rows.any fun r => (other.value r c.column).agrees v
  let holds (c : StoredColumn) : Bool :=
    let v := t.value row c.name
    v.isNull || c.references.all (occurs v)
  if t.columns.all holds then .ok ()
  else .error ⟨787, "FOREIGN KEY constraint failed"⟩

def insert (db : Database) (name : String) (given : List (String × Value)) :
    Except Fault Database := do
  let t ← db.find name
  match given.find? fun g => (t.definition.column? g.1).isNone with
  | some (column, _) => fault s!"table {name} has no column named {column}"
  | none =>
      let row ← t.columns.mapM fun c => t.keep c (given.lookup c.name)
      t.checkPresent row
      t.checkOnly row
      t.checkKey row
      let rows := t.rows ++ [row]
      (db.withRows name rows).checkReferences t row
      return db.withRows name rows

end Database

end RequestLog.Relational
