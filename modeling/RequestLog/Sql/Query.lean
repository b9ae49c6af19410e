import RequestLog.Sql.Dialect

/-!
# Queries and their arguments

A query is text for one backend with the values of its arguments in the order of
their numbers. The text is put together from parts, and `Params` collects the
arguments of all parts in the order in which they are written: `push` is the
only way to get a new argument, so none is written that has no value. A part that
is given up takes its values back with `truncate`.
-/

namespace RequestLog

structure Query where
  backend : Backend
  text : String
  args : List Scalar

def Query.toJson (q : Query) : Json :=
  .object [
    ("backend", .text q.backend.name),
    ("text", .text q.text),
    ("args", .array (Scalar.listToJson q.args))]

structure Params where
  backend : Backend
  values : Array Scalar := #[]

namespace Params

def size (p : Params) : Nat := p.values.size

def isEmpty (p : Params) : Bool := p.values.isEmpty

/-- Binds a value and gives the argument that stands for it. -/
def push (p : Params) (v : Scalar) : Sql.Expr × Params :=
  let p := { p with values := p.values.push v }
  (.argument p.size, p)

def truncate (p : Params) (size : Nat) : Params :=
  { p with values := p.values.take size }

def finish (p : Params) (text : String) : Query :=
  ⟨p.backend, text, p.values.toList⟩

end Params

end RequestLog
