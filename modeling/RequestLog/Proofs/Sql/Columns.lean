import RequestLog.Proofs.Filter.Check
import RequestLog.Proofs.Filter.Emit
import RequestLog.Proofs.Sql.Select

/-!
# The columns that an expression names

Whatever a dialect makes of expressions, it names no column that they do not name. A
condition names the columns of the fields that its leaves were resolved to, so the source of
a filter provides all of them (`Filter.Checks.columns`).

The tokens of a text name no other columns than the expression that the grammar derives from
them. So all columns in the text of a query are those of its parts (`columns_select`).
-/

namespace RequestLog

open Sql

mutual

/-- The columns that are named with their tables. -/
def Sql.Expr.columns : Expr → List ColumnRef
  | .column c => [c]
  | .verbatim _ | .bare _ | .argument _ | .truth _ | .integer _ | .number _ | .countAll => []
  | .countDistinct e | .isNull e _ | .not e | .cast e _ | .typed e _ => e.columns
  | .compare _ l r | .like l r | .junction _ l r | .arithmetic _ l r => l.columns ++ r.columns
  | .call _ args => Expr.columnsOf args
  | .oneOf e items => e.columns ++ Expr.columnsOf items
  | .caseWhen cs rs e => Expr.columnsOf cs ++ Expr.columnsOf rs ++ e.columns

def Sql.Expr.columnsOf : List Expr → List ColumnRef
  | [] => []
  | e :: rest => e.columns ++ Expr.columnsOf rest

end

theorem Sql.Expr.columnsOf_eq_flatMap (es : List Expr) :
    Expr.columnsOf es = es.flatMap Expr.columns := by
  induction es with
  | nil => rfl
  | cons e rest ih => rw [Expr.columnsOf, ih, List.flatMap_cons]

/-! ## Texts -/

namespace Sql

/-- The columns that a token names. -/
def Token.columns : Token → List ColumnRef
  | .operand e => e.columns
  | _ => []

def Relation.columns (r : Relation) : List ColumnRef :=
  r.joins.flatMap fun j => [j.left, j.right]

theorem Relation.columns_tokens (r : Relation) :
    r.tokens.flatMap Token.columns = r.columns := by
  simp [tokens, Join.tokens, columns, Token.columns, Expr.columns, List.flatMap_assoc]

theorem Binary.columns_apply (op : Binary) (l r : Expr) :
    (op.apply l r).columns = l.columns ++ r.columns := by
  cases op <;> rw [apply, Expr.columns]

section

attribute [local simp] Token.columns Expr.columns Expr.columnsOf Binary.columns_apply

mutual

theorem Primary.columns {ts : List Token} {e : Expr} (h : Primary ts e) :
    (ts.flatMap Token.columns).Perm e.columns := by
  match h with
  | .operand e => simp
  | .paren h => simpa using h.columns
  | .call h => simpa using h.columns
  | .distinct h => simpa using h.columns
  | .cast h => simpa using h.columns
  | .typed h => simpa using h.columns
  | .caseWhen hb he => simpa using hb.columns.append he.columns

theorem Reads.columns {n : Nat} {ts : List Token} {e : Expr} (h : Reads n ts e) :
    (ts.flatMap Token.columns).Perm e.columns := by
  match h with
  | .primary h => exact h.columns
  | .not _ h => simpa using h.columns
  | .binary _ hl hr => simpa using hl.columns.append hr.columns
  | .isNull _ h => simpa using h.columns
  | .oneOf _ h hs => simpa using h.columns.append hs.columns

theorem ReadsAll.columns {ts : List Token} {es : List Expr} (h : ReadsAll ts es) :
    (ts.flatMap Token.columns).Perm (Expr.columnsOf es) := by
  match h with
  | .one h => simpa using h.columns
  | .more h hs => simpa using h.columns.append hs.columns

theorem ReadsBranches.columns {ts : List Token} {cs rs : List Expr}
    (h : ReadsBranches ts cs rs) :
    (ts.flatMap Token.columns).Perm (Expr.columnsOf cs ++ Expr.columnsOf rs) := by
  match h with
  | .one hc hr => simpa using hc.columns.append hr.columns
  | .more hc hr hs =>
      -- The results stand between the conditions in the text, and behind them in a case.
      have hall := hc.columns.append (hr.columns.append hs.columns)
      simpa using hall.trans ((List.perm_append_comm_assoc ..).append_left _)

end

end

/-- The columns of a query of one item are those of the item, the relation and the condition. -/
theorem columns_select {b : Backend} {e e' : Expr} {name : String} {r : Relation}
    {c : Expr} {k count : Nat} (he : ReadsAs b 0 e e') (hname : tableName name = true)
    (hr : r.plain = true) (hc : ReadsBack b 0 c)
    (hargs : e.arguments = List.range' 1 k)
    (hcargs : c.arguments = List.range' (k + 1) count) :
    ((tokens ("SELECT " ++ (b.textOf e ++ " AS " ++ name) ++ " FROM " ++ r.text ++
      " WHERE " ++ b.textOf c)).flatMap Token.columns).Perm
        (e'.columns ++ (r.columns ++ c.columns)) := by
  obtain ⟨its, hitem, hits⟩ := he
  obtain ⟨cts, hcondition, hcts⟩ := hc
  rw [hargs] at hits
  rw [hcargs] at hcts
  rw [tokens_select hits hname hr hcts]
  have hall := hitem.columns.append (hcondition.columns.append_left r.columns)
  simpa [Token.columns, ← r.columns_tokens] using hall

end Sql

/-! ## Dialects -/

section

attribute [local simp] Expr.columns Expr.columnsOf

namespace Backend

variable (b : Backend)

theorem columns_bound (kind : Kind) (i : Nat) : (b.bound kind i).columns = [] := by
  rw [bound, beside]
  split
  · cases b <;> simp [instant]
  · rfl

theorem columns_contains (l r : Expr) : (b.contains l r).columns = l.columns ++ r.columns := by
  cases b <;> simp [contains, place]

theorem columns_startsWith (l r : Expr) :
    (b.startsWith l r).columns = l.columns ++ r.columns := by
  cases b <;> simp [startsWith]

theorem columns_toDouble (e : Expr) : (b.toDouble e).columns = e.columns := by
  cases b <;> simp [toDouble]

theorem columns_orZero (e : Expr) : (orZero e).columns = e.columns := by
  simp [orZero]

theorem columns_nonNegative (e : Expr) : (b.nonNegative e).columns = e.columns := by
  cases b <;> simp [nonNegative, columns_orZero]

end Backend

/-! ## Conditions -/

/-- A test names its own column, unless there is nothing to test. -/
theorem Test.columns_expr (b : Backend) (field : Field) (n : Nat) (t : Test) :
    ∀ c ∈ (t.expr b field n).columns, c = field.column := by
  cases t with
  | isNull | compare | like => simp [expr, Backend.columns_bound]
  | contains => simp [expr, Backend.columns_contains, Backend.columns_bound]
  | oneOf vs =>
      cases vs with
      | nil => simp [expr]
      | cons v rest =>
          simp [expr, Expr.columnsOf_eq_flatMap, Backend.columns_bound]

end

/-- The column of a field that a table has. -/
def Table.Has (t : Table) (family : Family) (c : ColumnRef) : Prop :=
  ∃ column f, Registry.resolve? family t column = some f ∧ f.column = c

/-- By induction on the filter: every leaf was resolved in the source. -/
theorem Filter.Checks.columns {family : Family} {source : Source} {filter : Filter}
    {condition : Condition} (h : Filter.Checks family source filter condition) (b : Backend)
    (n : Nat) : ∀ c ∈ (condition.expr b n).columns,
      ∃ t, source.provides.contains t = true ∧ t.Has family c := by
  induction h generalizing n with
  | all => exact List.forall_mem_nil _
  | leaf htable hfield =>
      intro c hc
      exact ⟨_, htable, _, _, hfield, (Test.columns_expr b _ n _ c hc).symm⟩
  | branch op _ _ ihl ihr =>
      rw [Condition.expr, Expr.columns]
      exact List.forall_mem_append.2 ⟨ihl n, ihr _⟩

end RequestLog
