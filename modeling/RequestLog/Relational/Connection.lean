import RequestLog.Relational.Select

/-!
# Statements of a connection

Whatever is asked of a database is a statement, and a statement that fails leaves
the database as it was. Between the begin of a transaction and its end the state
from before is kept, so that everything in between can be taken back.
-/

namespace RequestLog.Relational

inductive Statement where
  | hasTable (name : String)
  | query (text : String) (args : List Value)
  | define (definitions : List Schema.Definition)
  | insert (table : String) (values : List (String × Value))
  | begin
  | commit
  | rollback

structure Connection where
  database : Database
  /-- The state before the transaction that is under way. -/
  before : Option Database := none

def Result.empty : Result := ⟨[], []⟩

def Database.query (db : Database) (text : String) (args : List Value) :
    Except Fault Result :=
  match Sql.Select.ofText? text with
  | some q => db.select q args
  | none => fault "syntax error"

namespace Connection

def change (c : Connection) : Except Fault Database → Except Fault Result × Connection
  | .ok database => (.ok .empty, { c with database })
  | .error f => (.error f, c)

def run (c : Connection) : Statement → Except Fault Result × Connection
  | .hasTable name =>
      (.ok ⟨["count"], [[.ofBool (c.database.table? name).isSome]]⟩, c)
  | .query text args => (c.database.query text args, c)
  | .define definitions => c.change (definitions.foldlM Database.define c.database)
  | .insert table values => c.change (c.database.insert table values)
  | .begin =>
      match c.before with
      | none => (.ok .empty, { c with before := some c.database })
      | some _ => (fault "cannot start a transaction within a transaction", c)
  | .commit =>
      match c.before with
      | some _ => (.ok .empty, { c with before := none })
      | none => (fault "cannot commit - no transaction is active", c)
  | .rollback =>
      match c.before with
      | some before => (.ok .empty, ⟨before, none⟩)
      | none => (fault "cannot rollback - no transaction is active", c)

end Connection

end RequestLog.Relational
