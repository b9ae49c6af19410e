import RequestLog.Sql.Condition

/-!
# Compiling scoped filters

A scoped filter compiles for a backend to the text of a condition, alone or as
the `WHERE` of a query over the relation behind its source. Several parts may
share their arguments (`addCondition`), and a part that fails takes back what it
has bound; the arguments of what a query selects are bound before those of its
condition, because that is the order of its text.
-/

namespace RequestLog

def ScopedFilter.relation (s : ScopedFilter) (family : Family) :
    Except FilterError Source :=
  match Registry.source? family s.source with
  | some source => .ok source
  | none => unknownField family s.source .organizationId

namespace Backend

/-- A condition behind parts whose arguments are collected already. -/
def addCondition (b : Backend) (s : ScopedFilter) : Binding String := fun p =>
  if p.backend ≠ b then
    (.error (.invalidShape
      s!"parameters were collected for {p.backend.name}, compiler targets {b.name}"), p)
  else
    match s.relation b.family with
    | .error e => (.error e, p)
    | .ok source =>
        match Filter.emit b.family source s.tree p with
        | (.ok e, q) => (.ok (b.textOf e), q)
        | (.error e, q) => (.error e, q.truncate p.size)

/-- The condition with all that is bound then, where the rest is of no more use. -/
def compileInto (b : Backend) (s : ScopedFilter) (p : Params) :
    Except FilterError (String × Params) :=
  match b.addCondition s p with
  | (.ok text, p) => .ok (text, p)
  | (.error e, _) => .error e

def compile (b : Backend) (s : ScopedFilter) : Except FilterError Query := do
  let (text, p) ← b.compileInto s ⟨b, #[]⟩
  return p.finish text

/-- What a query selects: it may bind arguments, and it may fail. -/
abbrev Selection := Params → Except FilterError (String × Params)

def select (b : Backend) (s : ScopedFilter) (items : Selection) :
    Except FilterError Query := do
  let source ← s.relation b.family
  let (items, p) ← items ⟨b, #[]⟩
  let (condition, p) ← b.compileInto s p
  return p.finish s!"SELECT {items} FROM {source.relation.text} WHERE {condition}"

end Backend

end RequestLog
