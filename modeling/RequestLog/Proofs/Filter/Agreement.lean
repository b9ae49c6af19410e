import RequestLog.Proofs.Field.Registry
import RequestLog.Proofs.Filter.Compile

/-!
# What the backends agree on

A filter means the same to every backend, so backends may differ in nothing but
spelling. `Filter.pieces` is the text of a filter with its spelling left open: words
that every backend writes alike, and between them fields of the logical tables,
arguments, instants, and the search for a text in another. It is read off the filter
alone, and what a backend compiles is these pieces as it spells them. The arguments
are the values of the filter from left to right, which every backend is given as they
are, but for instants.

Whether there is anything to compile is agreed upon as well, as far as the layouts
allow. A row store has every field that a column store has, of the same kind and from
a relation that provides it, and nothing else about a backend can make a filter fail.
-/

namespace RequestLog

open Sql

/-! ## Values and pieces of a filter -/

/-- The values that an operand stands for: those of a list, and none for null. -/
def Scalar.spread : Scalar → List Scalar
  | .null => []
  | .list items => items
  | v => [v]

/-- What a filter compares with, from left to right. -/
def Filter.values : Filter → List Scalar
  | .all => []
  | .leaf l => l.value.spread
  | .branch left right _ => Filter.values left ++ Filter.values right

inductive Piece where
  | word (text : String)
  | field (t : Table) (c : Column)
  | argument (i : Nat)
  /-- The instant behind an argument. -/
  | instant (i : Nat)
  /-- The name of the function that gives the place of a text in another. -/
  | search

def Column.operand (c : Column) (i : Nat) : Piece :=
  if c.kind = .timestamp then .instant i else .argument i

/-- A leaf's pieces behind the first `n` arguments. -/
def Leaf.pieces (n : Nat) (l : Leaf) : List Piece :=
  let field := Piece.field l.table l.column
  let operand := l.column.operand (n + 1)
  let compared (c : Comparison) := [field, .word s!" {c.text} ", operand]
  match l.operator with
  | .equals => compared .eq
  | .notEquals => compared .ne
  | .greaterThan => compared .gt
  | .lessThan => compared .lt
  | .greaterOrEqual => compared .ge
  | .lessOrEqual => compared .le
  | .like => [field, .word " LIKE ", operand]
  | .isNull => [field, .word " IS NULL"]
  | .isNotNull => [field, .word " IS NOT NULL"]
  | .contains => [.search, .word "(", field, .word ", ", operand, .word ") > 0"]
  | .in =>
      match l.value.spread.length with
      | 0 => [.word "FALSE"]
      | k + 1 =>
          let operands := (List.range' (n + 1) (k + 1)).map l.column.operand
          [field, .word " IN ("] ++ operands.intersperse (.word ", ") ++ [.word ")"]

/-- A filter's pieces behind the first `n` arguments. -/
def Filter.pieces (n : Nat) : Filter → List Piece
  | .all => [.word "TRUE"]
  | .leaf l => Leaf.pieces n l
  | .branch left right op =>
      [.word "("] ++ Filter.pieces n left ++ [.word s!") {op.junction.text} ("] ++
        Filter.pieces (n + (Filter.values left).length) right ++ [.word ")"]

/-! ## Spelling -/

namespace Backend

/-- A value as a backend is given it: an instant itself, or its microseconds. -/
def passed : Backend → Scalar → Scalar
  | .postgres, .timestamp t => .timestamp t
  | _, .timestamp t => .int t.micros
  | _, v => v

/-- The functions that make an instant of its argument, the outer one first. -/
def instantCalls : Backend → List String
  | .sqlite | .postgres => []
  | .duckdb => ["make_timestamp"]
  | .clickhouse => ["fromUnixTimestamp64Micro", "toInt64"]

def searchName : Backend → String
  | .sqlite => "instr"
  | .postgres | .duckdb => "strpos"
  | .clickhouse => "position"

def spell (b : Backend) : Piece → String
  | .word s => s
  | .field t c => ((Registry.resolve? b.family t c).map Field.identifier).getD ""
  | .argument i => b.argumentText i
  | .instant i => b.instantCalls.foldr (fun f s => f ++ "(" ++ s ++ ")") (b.argumentText i)
  | .search => b.searchName

def spelled (b : Backend) (ps : List Piece) : String := String.join (ps.map b.spell)

variable {b : Backend}

@[simp] theorem spelled_cons (b : Backend) (p : Piece) (ps : List Piece) :
    b.spelled (p :: ps) = b.spell p ++ b.spelled ps := by
  simp [spelled, String.join_cons]

@[simp] theorem spell_word (b : Backend) (s : String) : b.spell (.word s) = s := rfl

@[simp] theorem spelled_nil (b : Backend) : b.spelled [] = "" := rfl

@[simp] theorem spelled_append (b : Backend) (ps qs : List Piece) :
    b.spelled (ps ++ qs) = b.spelled ps ++ b.spelled qs := by
  simp [spelled, String.join_append]

/-- Pieces with commas between them are spelled as a list. -/
theorem spelled_intersperse (b : Backend) (ps : List Piece) :
    b.spelled (ps.intersperse (.word ", ")) = commaList (ps.map b.spell) := by
  induction ps with
  | nil => rfl
  | cons p rest ih =>
      cases rest with
      | nil => simp [commaList_singleton]
      | cons p' rest =>
          rw [List.intersperse_cons_cons, spelled_cons, spelled_cons, ih, List.map_cons,
            List.map_cons, List.map_cons, commaList_cons_cons, String.append_assoc]
          rfl

end Backend

/-! ## Arguments -/

theorem Column.kind_ne (c : Column) : c.kind ≠ .float ∧ c.kind ≠ .bool := by
  cases c <;> decide

theorem Kind.Takes.spread_eq {kind : Kind} {v w : Scalar} (h : kind.Takes v w) :
    v.spread = [v] := by
  cases h <;> rfl

/-- Columns hold neither doubles nor truth values, so what a leaf compares with is
neither widened nor turned into a number. -/
theorem Kind.Takes.encode_eq {c : Column} {v w : Scalar} (h : c.kind.Takes v w)
    (b : Backend) : b.encode w = b.passed v := by
  obtain ⟨hfloat, hbool⟩ := c.kind_ne
  generalize c.kind = kind at h hfloat hbool
  cases h with
  | float | widened => exact absurd rfl hfloat
  | bool => exact absurd rfl hbool
  | int | text => cases b <;> rfl
  | timestamp => cases b <;> rfl

theorem Operator.Asks.encode_operands {op : Operator} {c : Column} {v : Scalar} {t : Test}
    (h : op.Asks c.kind v t) (b : Backend) :
    t.operands.map b.encode = v.spread.map b.passed := by
  cases h with
  | isNull | isNotNull => rfl
  | contains htakes | like htakes | compare _ htakes =>
      rw [htakes.spread_eq, Test.operands, List.map_singleton, List.map_singleton,
        htakes.encode_eq b]
  | «in» hall =>
      rw [Test.operands, Scalar.spread]
      induction hall with
      | nil => rfl
      | cons hv _ ih => rw [List.map_cons, List.map_cons, hv.encode_eq b, ih]

namespace Filter.Checks

variable {b : Backend} {source : Source} {f : Filter} {c : Condition}

theorem encode_operands {family : Family} (h : Checks family source f c) (b : Backend) :
    c.operands.map b.encode = f.values.map b.passed := by
  induction h with
  | all => rfl
  | leaf _ hresolve _ hasks =>
      rw [Registry.kind_of_resolve hresolve] at hasks
      exact hasks.encode_operands b
  | branch op _ _ ihl ihr =>
      rw [Condition.operands, values, List.map_append, List.map_append, ihl, ihr]

theorem length_operands {family : Family} (h : Checks family source f c) :
    c.operands.length = f.values.length := by
  have hlength := congrArg List.length (h.encode_operands .postgres)
  rwa [List.length_map, List.length_map] at hlength

end Filter.Checks

/-! ## Texts -/

theorem Sql.text_call_singleton {argument : Nat → String} {f : String} {e : Expr} :
    (Expr.call f [e]).text argument = f ++ "(" ++ e.text argument ++ ")" := by
  simp [text_call, Expr.texts, commaList_singleton, String.append_assoc]

namespace Backend

variable {b : Backend}

theorem textOf_instant (b : Backend) (i : Nat) :
    b.textOf (b.instant (.argument i)) = b.spell (.instant i) := by
  cases b with
  | sqlite | postgres => rfl
  | duckdb => exact text_call_singleton
  | clickhouse =>
      exact text_call_singleton.trans
        (congrArg (fun s => "fromUnixTimestamp64Micro" ++ "(" ++ s ++ ")")
          text_call_singleton)

theorem textOf_bound (b : Backend) (c : Column) (i : Nat) :
    b.textOf (b.bound c.kind i) = b.spell (c.operand i) := by
  by_cases hkind : c.kind = .timestamp
  · rw [bound, beside, if_pos hkind, Column.operand, if_pos hkind, textOf_instant]
  · rw [bound, beside, if_neg hkind, Column.operand, if_neg hkind]
    rfl

theorem textOf_place (b : Backend) (l r : Expr) :
    b.textOf (b.place l r) =
      b.spell .search ++ ("(" ++ (b.textOf l ++ (", " ++ (b.textOf r ++ ")")))) := by
  cases b <;>
    simp [place, textOf, spell, searchName, text_call, Expr.texts, commaList_singleton,
      commaList_cons_cons, String.append_assoc]

theorem textOf_contains (b : Backend) (l r : Expr) :
    b.textOf (b.contains l r) =
      b.spell .search ++ ("(" ++ (b.textOf l ++ (", " ++ (b.textOf r ++ ") > 0")))) := by
  have hplace := b.textOf_place l r
  have hzero : Expr.text b.argumentText (.integer 0) = "0" := rfl
  rw [contains, textOf, text_compare, ← textOf, hplace, hzero]
  simp [Comparison.text, String.append_assoc]

theorem spell_field {t : Table} {c : Column} {field : Field}
    (h : Registry.resolve? b.family t c = some field) :
    b.spell (.field t c) = b.textOf (.column field.column) := by
  rw [spell, h]
  rfl

end Backend

/-- The text of a leaf that was let through, operator by operator. -/
theorem Operator.Asks.spelled_pieces {b : Backend} {t : Table} {c : Column}
    {op : Operator} {v : Scalar} {field : Field} {test : Test}
    (hresolve : Registry.resolve? b.family t c = some field)
    (h : op.Asks field.kind v test) (n : Nat) :
    b.textOf (test.expr b field n) = b.spelled (Leaf.pieces n ⟨t, c, op, v⟩) := by
  have hfield := Backend.spell_field hresolve
  have hoperand := b.textOf_bound c
  rw [← Registry.kind_of_resolve hresolve] at hoperand
  simp only [Backend.textOf] at hfield hoperand
  cases h with
  | isNull | isNotNull =>
      rw [Test.expr, Backend.textOf, text_isNull]
      simp [Leaf.pieces, hfield]
  | contains _ =>
      rw [Test.expr, Backend.textOf_contains]
      simp only [Backend.textOf]
      simp [Leaf.pieces, hfield, hoperand]
  | like _ =>
      rw [Test.expr, Backend.textOf, text_like]
      simp [Leaf.pieces, hfield, hoperand]
  | @compare _ comparison _ _ hop _ =>
      rw [Test.expr, Backend.textOf, text_compare]
      cases op <;> cases hop <;>
        simp [Leaf.pieces, hfield, hoperand, toString, String.append_assoc]
  | «in» hall =>
      cases hall with
      | nil => rfl
      | @cons _ w rest ws _ hrest =>
          have hlength : (w :: ws).length = rest.length + 1 := by
            rw [List.length_cons, hrest.length_eq]
          rw [Test.expr, Backend.textOf, text_oneOf, hlength, Expr.texts_eq_map,
            List.map_map]
          simp only [Leaf.pieces, Scalar.spread, List.length_cons]
          rw [List.cons_append, List.cons_append]
          simp [hfield, Backend.spelled_intersperse, List.map_map, Function.comp_def,
            hoperand]

/-- A checked filter as every backend of the family spells it. -/
theorem Filter.Checks.spelled_pieces {b : Backend} {source : Source} {f : Filter}
    {c : Condition} (h : Checks b.family source f c) (n : Nat) :
    b.textOf (c.expr b n) = b.spelled (f.pieces n) := by
  induction h generalizing n with
  | all => rfl
  | leaf _ hresolve _ hasks => exact hasks.spelled_pieces hresolve n
  | @branch left right _ _ op hl _ ihl ihr =>
      have hleft := ihl n
      have hright := ihr (n + left.values.length)
      rw [Backend.textOf] at hleft hright
      rw [Condition.expr, Backend.textOf, text_junction, hl.length_operands, hleft, hright]
      simp [pieces, toString, String.append_assoc]

/-! ## Layouts -/

namespace Registry

/-- Every field of a column store is one of a row store. -/
theorem row_of_column {t : Table} {c : Column} {f : Field}
    (h : resolve? .column t c = some f) : ∃ f', resolve? .row t c = some f' := by
  cases t <;> cases c <;> cases h <;> exact ⟨_, rfl⟩

theorem provides_row {t u : Table} {source : Source}
    (h : source? .column t = some source) (hu : source.provides.contains u = true) :
    (rowSource t).provides.contains u = true := by
  cases t <;> cases h <;> cases u <;> first | rfl | cases hu

end Registry

theorem Leaf.field_row {t : Table} {source : Source} {l : Leaf} {field : Field}
    (hsource : Registry.source? .column t = some source)
    (h : l.field .column source = .ok field) :
    ∃ field', l.field .row (Registry.rowSource t) = .ok field' ∧
      field'.kind = field.kind := by
  obtain ⟨hprovides, hresolve⟩ := Leaf.provides_of_field h
  obtain ⟨field', hrow⟩ := Registry.row_of_column hresolve
  refine ⟨field', ?_, ?_⟩
  · rw [Leaf.field, if_pos (Registry.provides_row hsource hprovides), hrow]
  · rw [Registry.kind_of_resolve hrow, Registry.kind_of_resolve hresolve]

theorem Leaf.check_row {t : Table} {source : Source} {l : Leaf} {c : Condition}
    (hsource : Registry.source? .column t = some source)
    (h : l.check .column source = .ok c) :
    ∃ c', l.check .row (Registry.rowSource t) = .ok c' := by
  obtain ⟨field, hfield, h⟩ := ok_of_bind h
  obtain ⟨field', hrow, hkind⟩ := Leaf.field_row hsource hfield
  split at h
  · next hsupports =>
      obtain ⟨test, htest, -⟩ := ok_of_bind h
      refine ⟨.test field' test, ?_⟩
      rw [Leaf.check, hrow]
      simp only [bind, Except.bind, hkind, hsupports, htest]
      rfl
  · cases h

theorem Filter.check_row {t : Table} {source : Source}
    (hsource : Registry.source? .column t = some source) {f : Filter} {c : Condition}
    (h : f.check .column source = .ok c) :
    ∃ c', f.check .row (Registry.rowSource t) = .ok c' := by
  induction f generalizing c with
  | all => exact ⟨.always, rfl⟩
  | leaf l => exact Leaf.check_row hsource h
  | branch left right op ihl ihr =>
      obtain ⟨cl, hl, h⟩ := ok_of_bind h
      obtain ⟨cr, hr, -⟩ := ok_of_bind h
      obtain ⟨cl', hl'⟩ := ihl hl
      obtain ⟨cr', hr'⟩ := ihr hr
      refine ⟨.junction op.junction cl' cr', ?_⟩
      rw [check, hl', hr']
      rfl

theorem ScopedFilter.check_row {s : ScopedFilter} {c : Condition}
    (h : s.check .column = .ok c) : ∃ c', s.check .row = .ok c' := by
  obtain ⟨source, hsource, h⟩ := ok_of_bind h
  obtain ⟨c', hc'⟩ := Filter.check_row (s.source_of_relation hsource) h
  exact ⟨c', hc'⟩

/-! ## Agreement -/

theorem ScopedFilter.spelled_of_check {s : ScopedFilter} {b : Backend} {c : Condition}
    (h : s.check b.family = .ok c) :
    b.textOf (c.expr b 0) = b.spelled (s.tree.pieces 0) ∧
      c.operands.map b.encode = s.tree.values.map b.passed := by
  obtain ⟨source, -, hchecks⟩ := s.checks_of_check h
  exact ⟨hchecks.spelled_pieces 0, hchecks.encode_operands b⟩

/-- What four backends make of one filter. Those of a family compile it or refuse it
together, and a row store compiles whatever a column store does. All that compile it
are given the same values, instants in the form of each, and write the same pieces,
each in its own spelling. -/
theorem Backend.compile_agreement (s : ScopedFilter) :
    (∀ b b' : Backend, b.family = b'.family →
      (∃ q q', b.compile s = .ok q ∧ b'.compile s = .ok q') ∨
        ∃ e, b.compile s = .error e ∧ b'.compile s = .error e) ∧
    (∀ (b b' : Backend) (q : Query), b.family = .column → b'.family = .row →
      b.compile s = .ok q → ∃ q', b'.compile s = .ok q') ∧
    (∀ (b : Backend) (q : Query), b.compile s = .ok q →
      q.args = s.tree.values.map b.passed) ∧
    (∀ (b : Backend) (q : Query), b.compile s = .ok q →
      q.text = b.spelled (s.tree.pieces 0)) := by
  refine ⟨?_, ?_, ?_, ?_⟩
  · intro b b' hfamily
    rw [compile_eq, compile_eq, ← hfamily]
    cases s.check b.family with
    | error e => exact .inr ⟨e, rfl, rfl⟩
    | ok c => exact .inl ⟨_, _, rfl, rfl⟩
  · intro b b' q hb hb' hq
    obtain ⟨c, hc, -⟩ := compile_ok hq
    rw [hb] at hc
    obtain ⟨c', hc'⟩ := s.check_row hc
    rw [compile_eq, hb', hc']
    exact ⟨_, rfl⟩
  · intro b q hq
    obtain ⟨c, hc, rfl⟩ := compile_ok hq
    exact (s.spelled_of_check hc).2
  · intro b q hq
    obtain ⟨c, hc, rfl⟩ := compile_ok hq
    exact (s.spelled_of_check hc).1

/-- One filter as two backends of different families spell it. -/
theorem sampleScope_agreed :
    ∃ q q', Backend.clickhouse.compile sampleScope = .ok q ∧
      Backend.postgres.compile sampleScope = .ok q' ∧
      q.args = sampleScope.tree.values.map Backend.clickhouse.passed ∧
      q'.args = sampleScope.tree.values.map Backend.postgres.passed ∧
      q.text = Backend.clickhouse.spelled (sampleScope.tree.pieces 0) ∧
      q'.text = Backend.postgres.spelled (sampleScope.tree.pieces 0) := by
  obtain ⟨-, hrow, hargs, htext⟩ := Backend.compile_agreement sampleScope
  obtain ⟨q, hq⟩ := sampleScope_compiles .clickhouse
  obtain ⟨q', hq'⟩ := hrow .clickhouse .postgres q rfl rfl hq
  exact ⟨q, q', hq, hq', hargs _ q hq, hargs _ q' hq', htext _ q hq, htext _ q' hq'⟩

end RequestLog
