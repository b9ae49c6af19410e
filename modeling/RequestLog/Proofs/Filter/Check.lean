import RequestLog.Proofs.Except
import RequestLog.Sql.Condition

/-!
# What a check lets through

Whether a filter can be turned into a condition does not depend on the arguments
that are there already. `Filter.check` goes through the leaves as `Filter.emit`
does and binds nothing: it gives what is wrong with the first bad leaf, or the
filter with every leaf resolved, a `Condition`.

`Filter.Checks` says which condition that is: the trees have the same shape, every
column was found among those the source provides, every operator suits its column,
and the operands are those of the leaf, an integer widened where a double is due.
What holds of every compiled filter is proved along it.
-/

namespace RequestLog

inductive Test where
  | isNull (negated : Bool)
  | compare (op : Sql.Comparison) (operand : Scalar)
  | like (operand : Scalar)
  | contains (operand : Scalar)
  | oneOf (operands : List Scalar)

inductive Condition where
  | always
  | test (field : Field) (t : Test)
  | junction (op : Sql.Junction) (left right : Condition)

def Operator.comparison? : Operator → Option Sql.Comparison
  | .equals => some .eq
  | .notEquals => some .ne
  | .greaterThan => some .gt
  | .lessThan => some .lt
  | .greaterOrEqual => some .ge
  | .lessOrEqual => some .le
  | .like | .isNull | .isNotNull | .contains | .in => none

/-- A leaf's operator with its operand, for a column of some kind. -/
def Operator.test (op : Operator) (name : String) (kind : Kind) (value : Scalar) :
    Except FilterError Test :=
  match op with
  | .isNull => nullTest false
  | .isNotNull => nullTest true
  | .in =>
      match value with
      | .list items => (items.mapM (kind.operand name)).map .oneOf
      | v => typeMismatch name "list" v
  | .contains => (kind.operand name value).map .contains
  | .like => (kind.operand name value).map .like
  | .equals => (kind.operand name value).map (.compare .eq)
  | .notEquals => (kind.operand name value).map (.compare .ne)
  | .greaterThan => (kind.operand name value).map (.compare .gt)
  | .lessThan => (kind.operand name value).map (.compare .lt)
  | .greaterOrEqual => (kind.operand name value).map (.compare .ge)
  | .lessOrEqual => (kind.operand name value).map (.compare .le)
where
  nullTest (negated : Bool) : Except FilterError Test :=
    if value.isNull then .ok (.isNull negated) else typeMismatch name "null" value

def Leaf.check (family : Family) (source : Source) (l : Leaf) :
    Except FilterError Condition := do
  let field ← Leaf.field family source l
  let name := fieldName l.table l.column
  if l.operator.supports field.kind then
    let t ← l.operator.test name field.kind l.value
    return .test field t
  else throw (.unsupportedOperator name l.operator field.kind)

/-- The filter with every leaf resolved, or what is wrong with the first bad one. -/
def Filter.check (family : Family) (source : Source) :
    Filter → Except FilterError Condition
  | .all => .ok .always
  | .leaf l => Leaf.check family source l
  | .branch left right op => do
      let left ← Filter.check family source left
      let right ← Filter.check family source right
      return .junction op.junction left right

/-! ## The judgement -/

/-- An operand that a column of some kind takes, and what becomes of it. -/
inductive Kind.Takes : Kind → Scalar → Scalar → Prop
  | bool (x : Bool) : Takes .bool (.bool x) (.bool x)
  | int (i : Int) : Takes .int (.int i) (.int i)
  | float (x : Float) : Takes .float (.float x) (.float x)
  | widened (i : Int) : Takes .float (.int i) (.float (Decimal.ofInt i))
  | text (s : String) : Takes .text (.text s) (.text s)
  | timestamp (t : Instant) : Takes .timestamp (.timestamp t) (.timestamp t)

/-- What an operator with its operand asks of a column of some kind. -/
inductive Operator.Asks (kind : Kind) : Operator → Scalar → Test → Prop
  | isNull : Asks kind .isNull .null (.isNull false)
  | isNotNull : Asks kind .isNotNull .null (.isNull true)
  | in {items vs : List Scalar} : List.Forall₂ kind.Takes items vs →
      Asks kind .in (.list items) (.oneOf vs)
  | contains {v w : Scalar} : kind.Takes v w → Asks kind .contains v (.contains w)
  | like {v w : Scalar} : kind.Takes v w → Asks kind .like v (.like w)
  | compare {op : Operator} {c : Sql.Comparison} {v w : Scalar} :
      op.comparison? = some c → kind.Takes v w → Asks kind op v (.compare c w)

inductive Filter.Checks (family : Family) (source : Source) : Filter → Condition → Prop
  | all : Checks family source .all .always
  | leaf {l : Leaf} {field : Field} {t : Test} :
      source.provides.contains l.table = true →
      Registry.resolve? family l.table l.column = some field →
      l.operator.supports field.kind = true →
      l.operator.Asks field.kind l.value t →
      Checks family source (.leaf l) (.test field t)
  | branch {left right : Filter} {cl cr : Condition} (op : Connective) :
      Checks family source left cl → Checks family source right cr →
      Checks family source (.branch left right op) (.junction op.junction cl cr)

/-! ## Checking, taken apart -/

theorem Kind.takes_of_operand {kind : Kind} {name : String} {v w : Scalar}
    (h : kind.operand name v = .ok w) : kind.Takes v w := by
  cases kind <;> cases v <;> simp only [operand, typeMismatch, Except.ok.injEq,
    reduceCtorEq] at h <;> subst h <;> constructor

theorem Kind.takes_of_operands {kind : Kind} {name : String} {items vs : List Scalar}
    (h : items.mapM (kind.operand name) = .ok vs) :
    List.Forall₂ kind.Takes items vs :=
  (forall₂_of_mapM h).imp fun _ _ => takes_of_operand

theorem Operator.asks_of_nullTest {name : String} {v : Scalar}
    {negated : Bool} {t : Test} (h : Operator.test.nullTest name v negated = .ok t) :
    v = .null ∧ t = .isNull negated := by
  rw [test.nullTest] at h
  split at h
  · next hnull =>
      cases h
      cases v <;> first | exact ⟨rfl, rfl⟩ | cases hnull
  · cases h

theorem Operator.asks_of_test {op : Operator} {name : String} {kind : Kind}
    {v : Scalar} {t : Test} (h : op.test name kind v = .ok t) :
    op.Asks kind v t := by
  cases op with
  | isNull => obtain ⟨rfl, rfl⟩ := asks_of_nullTest h; exact .isNull
  | isNotNull => obtain ⟨rfl, rfl⟩ := asks_of_nullTest h; exact .isNotNull
  | «in» =>
      cases v with
      | list items =>
          obtain ⟨vs, hvs, rfl⟩ := ok_of_map h
          exact .in (Kind.takes_of_operands hvs)
      | null | bool | int | float | text | timestamp => cases h
  | contains =>
      obtain ⟨w, hw, rfl⟩ := ok_of_map h
      exact .contains (Kind.takes_of_operand hw)
  | like =>
      obtain ⟨w, hw, rfl⟩ := ok_of_map h
      exact .like (Kind.takes_of_operand hw)
  | equals | notEquals | greaterThan | lessThan | greaterOrEqual | lessOrEqual =>
      obtain ⟨w, hw, rfl⟩ := ok_of_map h
      exact .compare rfl (Kind.takes_of_operand hw)

theorem Leaf.provides_of_field {family : Family} {source : Source} {l : Leaf}
    {field : Field} (h : l.field family source = .ok field) :
    source.provides.contains l.table = true ∧
      Registry.resolve? family l.table l.column = some field := by
  rw [Leaf.field] at h
  split at h
  · next hprovides =>
      split at h
      · next hf => cases h; exact ⟨hprovides, hf⟩
      · cases h
  · cases h

theorem Leaf.checks_of_check {family : Family} {source : Source} {l : Leaf}
    {c : Condition} (h : l.check family source = .ok c) :
    Filter.Checks family source (.leaf l) c := by
  obtain ⟨field, hf, h⟩ := ok_of_bind h
  obtain ⟨hprovides, hresolve⟩ := provides_of_field hf
  split at h
  · next hsupports =>
      obtain ⟨t, ht, h⟩ := ok_of_bind h
      cases h
      exact .leaf hprovides hresolve hsupports (Operator.asks_of_test ht)
  · cases h

theorem Filter.checks_of_check {family : Family} {source : Source} {f : Filter}
    {c : Condition} (h : f.check family source = .ok c) :
    f.Checks family source c := by
  induction f generalizing c with
  | all => cases h; exact .all
  | leaf l => exact Leaf.checks_of_check h
  | branch left right op ihl ihr =>
      obtain ⟨cl, hl, h⟩ := ok_of_bind h
      obtain ⟨cr, hr, h⟩ := ok_of_bind h
      cases h
      exact .branch op (ihl hl) (ihr hr)

end RequestLog
