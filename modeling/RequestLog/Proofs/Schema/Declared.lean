import RequestLog.Field.Registry
import RequestLog.Schema.Tables

/-!
# The registry and the schema agree

Which columns there are is said twice: the registry says it to those who write queries, and
the schema to the store. Every field of the registry is a column of the schema, of the type
that values of the field's kind are compared with, and marked as one that is never empty if
the field is never null (`Registry.declared_of_resolve`).

A field that is never null must not come from a table that a join can leave empty, and the
fields of every table that a source provides must come from a table that it joins. Both are
settled by going through the sources (`Registry.joined_of_provides`, `Registry.kept_of_resolve`).
-/

namespace RequestLog

open Sql Schema

/-- The word of a schema for the values of a kind. An instant is kept as what it is compared
with: microseconds, or a time of the store's own. -/
def Backend.word? : Backend → Kind → Option String
  | .sqlite, .text => some "TEXT"
  | .sqlite, .int => some "INTEGER"
  | .sqlite, .timestamp => some "INTEGER"
  | .postgres, .text => some "TEXT"
  | .postgres, .int => some "BIGINT"
  | .postgres, .timestamp => some "TIMESTAMPTZ"
  | .duckdb, .text => some "VARCHAR"
  | .duckdb, .int => some "BIGINT"
  | .duckdb, .timestamp => some "TIMESTAMP"
  | .clickhouse, .text => some "String"
  | .clickhouse, .int => some "Int64"
  | .clickhouse, .timestamp => some "DateTime64(6, 'UTC')"
  | _, .bool | _, .float => none

/-- The declaration of a column, under a name and with the word of its type. Where a value has
to be there, ClickHouse leaves the word as it is, and the others put a mark behind it. -/
inductive Declares (name word : String) : Backend → (filled : Bool) → String → Prop where
  | bare {filled : Bool} : Declares name word .clickhouse filled (s!"{name} " ++ word)
  | nullable : Declares name word .clickhouse false (s!"{name} " ++ s!"Nullable({word})")
  | marked {b : Backend} {filled : Bool} {marks : List String} : b ≠ .clickhouse →
      (filled = true → "NOT NULL" ∈ marks ∨ "PRIMARY KEY" ∈ marks) →
      Declares name word b filled (String.intercalate " " (name :: word :: marks))

namespace Schema

/-- What stands behind the type of a column. -/
def StoredColumn.marks (c : StoredColumn) : List String :=
  (if c.nullable || c.key then [] else ["NOT NULL"])
    ++ (if c.key then ["PRIMARY KEY"] else [])
    ++ (c.only.map fun i => s!"CHECK ({c.name} = {Decimal.intText i})").toList
    ++ (c.references.map fun r =>
        s!"REFERENCES {r.table} ({r.column}) ON DELETE CASCADE").toList

theorem StoredColumn.mem_marks {c : StoredColumn} (h : c.nullable = false) :
    "NOT NULL" ∈ c.marks ∨ "PRIMARY KEY" ∈ c.marks := by
  rw [marks, h]
  cases c.key with
  | false => exact .inl List.mem_cons_self
  | true => exact .inr List.mem_cons_self

theorem StoredColumn.text_marks {b : Backend} (c : StoredColumn) (h : b ≠ .clickhouse) :
    c.text b = String.intercalate " " (c.name :: c.type.word b :: c.marks) := by
  cases b with
  | clickhouse => exact absurd rfl h
  | sqlite | postgres | duckdb => simp [text, marks]

theorem StoredColumn.declares (b : Backend) (c : StoredColumn) {filled : Bool}
    (h : filled = true → c.nullable = false) :
    Declares c.name (c.type.word b) b filled (c.text b) := by
  by_cases hb : b = .clickhouse
  · subst hb
    unfold StoredColumn.text
    cases hnull : c.nullable with
    | false => exact .bare
    | true =>
      cases filled with
      | false => exact .nullable
      | true =>
        rw [h rfl] at hnull
        cases hnull
  · rw [c.text_marks hb]
    exact .marked hb fun hfilled => mem_marks (h hfilled)

end Schema

/-! ## Fields of the registry -/

/-- The tables of which a row may be missing beside a row of the others. -/
def Sql.Relation.optionalTables (r : Relation) : List String :=
  (r.joins.filter (·.kind == .left)).map (·.table)

/-- The field is a column of the schema, under its own name. -/
def Field.Declared (f : Field) (b : Backend) : Prop :=
  ∃ t ∈ tables (schema b), t.name = f.column.table ∧
    ∃ c ∈ t.columns, c.name = f.column.column ∧ b.word? f.kind = some (c.type.word b) ∧
      (f.nullable = false → c.nullable = false)

instance (f : Field) (b : Backend) : Decidable (f.Declared b) :=
  inferInstanceAs (Decidable (∃ _ ∈ _, _))

namespace Registry

variable {b : Backend} {family : Family} {t : Table} {c : Column} {f : Field}

theorem declared_of_resolve (h : resolve? b.family t c = some f) : f.Declared b := by
  cases b <;> cases t <;> cases c <;> cases h <;> decide +kernel

theorem joined_of_provides {source : Source} {own : Table}
    (hsource : source? family own = some source) (ht : source.provides.contains t = true)
    (h : resolve? family t c = some f) : f.column.table ∈ source.relation.tables := by
  cases family <;> cases own <;> cases hsource <;> cases t <;> first
    | exact absurd ht (by decide)
    | cases c <;> cases h <;> decide +kernel

/-- A request may have no response, and then it has no column of one. -/
theorem nullable_of_response (h : resolve? family t c = some f)
    (htable : f.column.table = "response") : f.nullable = true := by
  cases family <;> cases t <;> cases c <;> cases h <;> first
    | rfl
    | exact absurd htable (by decide)

theorem kept_of_resolve {source : Source} {own : Table}
    (hsource : source? family own = some source) (h : resolve? family t c = some f)
    (hnever : f.nullable = false) : f.column.table ∉ source.relation.optionalTables := by
  have response : ∀ name ∈ source.relation.optionalTables, name = "response" := by
    cases family <;> cases own <;> cases hsource <;> decide +kernel
  intro hoptional
  rw [nullable_of_response h (response _ hoptional)] at hnever
  cases hnever

end Registry

/-- What a query relies on that reads a field from a relation. -/
structure Field.StoredIn (f : Field) (b : Backend) (r : Relation) : Prop where
  joined : f.column.table ∈ r.tables
  declared : ∃ t ∈ tables (schema b), t.name = f.column.table ∧ ∃ c ∈ t.columns, ∃ word,
    b.word? f.kind = some word ∧ Declares f.column.column word b (!f.nullable) (c.text b)
  kept : f.nullable = false → f.column.table ∉ r.optionalTables

theorem Registry.storedIn_of_joined {b : Backend} {own t : Table} {c : Column} {f : Field}
    {source : Source} (hsource : source? b.family own = some source)
    (h : resolve? b.family t c = some f) (hjoined : f.column.table ∈ source.relation.tables) :
    f.StoredIn b source.relation where
  joined := hjoined
  declared := by
    obtain ⟨table, htable, hname, column, hcolumn, hfield, hword, hfilled⟩ :=
      declared_of_resolve h
    refine ⟨table, htable, hname, column, hcolumn, _, hword, ?_⟩
    rw [← hfield]
    exact column.declares b fun hnever => hfilled (by simpa using hnever)
  kept := kept_of_resolve hsource h

end RequestLog
