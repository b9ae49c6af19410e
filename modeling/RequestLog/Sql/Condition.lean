import RequestLog.Field.Registry
import RequestLog.Filter.Scope
import RequestLog.Sql.Query

/-!
# From filters to conditions

A filter becomes an expression leaf by leaf, from left to right. For every leaf
the column is resolved, the operator is held against the column's kind, and the
operand is checked and bound. Each of these can fail, and then the operands that
were bound before are still there (`Binding`). Nothing is taken back in here:
that is left to whoever began (`Backend.addCondition`).
-/

namespace RequestLog

/-- Work that binds operands. What it has bound stays bound when it fails. -/
abbrev Binding := ExceptT FilterError (StateM Params)

/-! ## Operands -/

def typeMismatch {α : Type} (name expected : String) (actual : Scalar) :
    Except FilterError α :=
  .error (.typeMismatch name expected actual.typeName)

/-- The operand for a column of some kind; an integer is a double where one is due. -/
def Kind.operand (name : String) : Kind → Scalar → Except FilterError Scalar
  | .bool, .bool b => .ok (.bool b)
  | .int, .int i => .ok (.int i)
  | .float, .float x => .ok (.float x)
  | .float, .int i => .ok (.float (Decimal.ofInt i))
  | .text, .text s => .ok (.text s)
  | .timestamp, .timestamp t => .ok (.timestamp t)
  | kind, s => typeMismatch name kind.name s

def Backend.encode (b : Backend) : Scalar → Scalar
  | .bool x => b.encodeBool x
  | .timestamp t => b.encodeInstant t
  | s => s

def Params.bind (p : Params) (kind : Kind) (v : Scalar) : Sql.Expr × Params :=
  let (e, p) := p.push (p.backend.encode v)
  (if kind = .timestamp then p.backend.instant e else e, p)

def Kind.bind (kind : Kind) (name : String) (v : Scalar) : Binding Sql.Expr := do
  let v ← kind.operand name v
  modifyGet (·.bind kind v)

/-! ## Leaves and trees -/

def Connective.junction : Connective → Sql.Junction
  | .and => .and
  | .or => .or

def Operator.emit (op : Operator) (name : String) (field : Field) (value : Scalar) :
    Binding Sql.Expr := do
  let column := Sql.Expr.column field.column
  match op with
  | .isNull => nullTest column false
  | .isNotNull => nullTest column true
  | .in =>
      match value with
      | .list [] => return .truth false
      | .list items => return .oneOf column (← items.mapM (field.kind.bind name))
      | v => typeMismatch name "list" v
  | .contains =>
      let e ← field.kind.bind name value
      return (← get).backend.contains column e
  | .like => return .like column (← field.kind.bind name value)
  | .equals => return .compare .eq column (← field.kind.bind name value)
  | .notEquals => return .compare .ne column (← field.kind.bind name value)
  | .greaterThan => return .compare .gt column (← field.kind.bind name value)
  | .lessThan => return .compare .lt column (← field.kind.bind name value)
  | .greaterOrEqual => return .compare .ge column (← field.kind.bind name value)
  | .lessOrEqual => return .compare .le column (← field.kind.bind name value)
where
  nullTest (column : Sql.Expr) (negated : Bool) : Binding Sql.Expr :=
    if value.isNull then return .isNull column negated
    else typeMismatch name "null" value

def unknownField {α : Type} (family : Family) (t : Table) (c : Column) :
    Except FilterError α :=
  .error (.unknownField family t c)

def Leaf.field (family : Family) (source : Source) (l : Leaf) :
    Except FilterError Field :=
  if source.provides.contains l.table then
    match Registry.resolve? family l.table l.column with
    | some f => .ok f
    | none => unknownField family l.table l.column
  else unknownField family l.table l.column

def Leaf.emit (family : Family) (source : Source) (l : Leaf) : Binding Sql.Expr := do
  let field ← Leaf.field family source l
  let name := fieldName l.table l.column
  if l.operator.supports field.kind then
    l.operator.emit name field l.value
  else throw (.unsupportedOperator name l.operator field.kind)

/-- The condition that a filter states, its operands bound in the order of the leaves. -/
def Filter.emit (family : Family) (source : Source) : Filter → Binding Sql.Expr
  | .all => return .truth true
  | .leaf l => Leaf.emit family source l
  | .branch left right op => do
      let left ← Filter.emit family source left
      let right ← Filter.emit family source right
      return .junction op.junction left right

end RequestLog
