import Mathlib.Data.Multiset.Defs
import RequestLog.Metric.Run
import RequestLog.Proofs.Relational.Join
import RequestLog.Sql.Select

/-!
# Servers of a row store

A server reads the text of a query, takes the records of its relation, and keeps those
for which the condition is true. What it answers then depends on the records that were
kept and on how often each occurs, but not on their order: that is all that a query of
sums and counts may depend on. How it computes the sums is left to the server.

Of conditions no more is asked than what is true in every store: a conjunction holds if
both of its sides do, and a column is equal to a text if that is its value. The embedded
store evaluates conditions in this way (`embedded_ordinary`), and what it keeps are the
records for which they are true (`filterM_keeps`).
-/

namespace RequestLog.Relational

open Sql

structure Server (m : Type → Type) where
  backend : Backend
  holds : Expr → List Scalar → Record → Bool
  /-- The answer for some items, given the arguments and the records that were kept. -/
  answer : List (Expr × String) → List Scalar → List Store.ResultColumn →
    Multiset Record → m (Except Store.FetchError (List Store.Row))
  /-- The answer to a query that cannot be read or asks for a table that is not there. -/
  refuse : Query → List Store.ResultColumn → m (Except Store.FetchError (List Store.Row))

namespace Server

variable {m : Type → Type}

/-- Conditions that hold as they do in every store. -/
structure Ordinary (holds : Expr → List Scalar → Record → Bool) : Prop where
  and (l r : Expr) (args : List Scalar) (record : Record) :
    holds (.junction .and l r) args record = (holds l args record && holds r args record)
  equals {args : List Scalar} {i : Nat} {s : String} (h : args[i]? = some (.text s))
    (c : ColumnRef) (record : Record) :
    holds (.compare .eq (.column c) (.argument (i + 1))) args record = true ↔
      valueIn record c = .text s

/-- A server of some database, as the program asks it. -/
def executor (S : Server m) (db : Database) : Executor m where
  backend := S.backend
  fetch q columns :=
    match Select.ofText? q.text with
    | none => S.refuse q columns
    | some s =>
        match db.records s.relation with
        | .error _ => S.refuse q columns
        | .ok (records, _) =>
            S.answer s.items q.args columns
              (Multiset.ofList (records.filter (S.holds s.condition q.args)))

theorem fetch_eq {S : Server m} {db : Database} {q : Query} {s : Select}
    {records : List Record} {absent : Record} (hread : Select.ofText? q.text = some s)
    (hrecords : db.records s.relation = .ok (records, absent))
    (columns : List Store.ResultColumn) :
    (S.executor db).fetch q columns = S.answer s.items q.args columns
      (Multiset.ofList (records.filter (S.holds s.condition q.args))) := by
  simp only [executor, hread, hrecords]

end Server

/-! ## Conditions in the embedded store -/

/-- Whether a condition is true of a record; one that cannot be evaluated is not. -/
def embedded (e : Expr) (args : List Scalar) (record : Record) : Bool :=
  (engine ⟨args.map fun a => (Store.Sqlite.bind a).getD .null, record, []⟩).holds e == some true

theorem embedded_of_keeps {q : Select} {args : List Scalar} {record : Record} {b : Bool}
    (h : Database.keeps q (args.map fun a => (Store.Sqlite.bind a).getD .null) record = .ok b) :
    embedded q.condition args record = b := by
  obtain ⟨v, hv, h⟩ := ok_of_bind h
  cases h
  rw [embedded, holds_of_evaluate hv]
  cases v.truth == some true <;> rfl

/-- What passes a test that may fail is collected in reverse, before what passed earlier. -/
theorem filterAuxM_ok {ε α : Type} {test : α → Except ε Bool} {p : α → Bool}
    (htest : ∀ x b, test x = .ok b → p x = b) {xs earlier out : List α}
    (h : xs.filterAuxM test earlier = .ok out) : out = (xs.filter p).reverse ++ earlier := by
  induction xs generalizing earlier with
  | nil => cases h; rfl
  | cons x rest ih =>
      obtain ⟨b, hb, h⟩ := ok_of_bind h
      rw [ih h, List.filter_cons, htest x b hb]
      cases b with
      | true => simp
      | false => rfl

/-- The embedded store keeps the records for which the condition is true. -/
theorem filterM_keeps {q : Select} {args : List Scalar} {records kept : List Record}
    (h : records.filterM
      (Database.keeps q (args.map fun a => (Store.Sqlite.bind a).getD .null)) = .ok kept) :
    kept = records.filter (embedded q.condition args) := by
  obtain ⟨reversed, hreversed, h⟩ := ok_of_bind h
  cases h
  rw [filterAuxM_ok (fun _ _ => embedded_of_keeps) hreversed, List.append_nil,
    List.reverse_reverse]

theorem column_eq (s : Scope) (c : ColumnRef) :
    s.column c = match s.record.lookup c with
      | some v => .ok v
      | none => fault s!"no such column: {c.text}" := by
  have hfind : (s.record.find? (·.1 == c)).map (·.2) = s.record.lookup c := by
    induction s.record with
    | nil => rfl
    | cons x rest ih =>
        rw [List.find?_cons, List.lookup_cons, BEq.comm (a := x.1)]
        cases c == x.1 with
        | true => rfl
        | false => exact ih
  rw [Scope.column, ← hfind]
  cases s.record.find? (·.1 == c) <;> rfl

theorem compareTruth_text {v : Value} {t : String} :
    compareTruth .eq v (.text t) = some true ↔ v = .text t := by
  cases v with
  | null => exact ⟨nofun, nofun⟩
  | int i => exact ⟨nofun, nofun⟩
  | real x => exact ⟨nofun, nofun⟩
  | text s =>
      change some (Value.compareTexts s t == .eq) = some true ↔ _
      rw [compareTexts_beq_eq, Option.some_inj, decide_eq_true_eq, Value.text.injEq]

theorem holds_and (s : Scope) (l r : Expr) :
    ((engine s).holds (.junction .and l r) == some true) =
      ((engine s).holds l == some true && (engine s).holds r == some true) := by
  cases hl : evaluate s l with
  | error f =>
      have hboth : evaluate s (.junction .and l r) = .error f := by
        rw [evaluate, hl]
        rfl
      rw [holds_of_error hl, holds_of_error hboth]
      rfl
  | ok v =>
      cases hr : evaluate s r with
      | error f =>
          have hboth : evaluate s (.junction .and l r) = .error f := by
            rw [evaluate, hl, hr]
            rfl
          rw [holds_of_error hr, holds_of_error hboth]
          exact (Bool.and_false _).symm
      | ok w =>
          have hboth : evaluate s (.junction .and l r) =
              .ok (.ofTruth (andTruth v.truth w.truth)) := by
            rw [evaluate, hl, hr]
            rfl
          rw [holds_of_evaluate hl, holds_of_evaluate hr, holds_of_evaluate hboth,
            Value.truth_ofTruth]
          rcases v.truth with _ | _ | _ <;> rcases w.truth with _ | _ | _ <;> rfl

/-- A column that a record does not have is compared like one that is absent in it. -/
theorem embedded_compare {args : List Scalar} {i : Nat} {a : Scalar} {w : Value}
    (h : args[i]? = some a) (hw : (Store.Sqlite.bind a).getD .null = w) (op : Comparison)
    (c : ColumnRef) (record : Record) :
    embedded (.compare op (.column c) (.argument (i + 1))) args record =
      (compareTruth op (valueIn record c) w == some true) := by
  rw [embedded]
  generalize hs : Scope.mk _ record [] = s
  have hargument : evaluate s (.argument (i + 1)) = .ok w := by
    rw [evaluate, ← hs, Nat.add_sub_cancel, List.getD_eq_getElem?_getD, List.getElem?_map, h,
      ← hw]
    rfl
  have hrecord : s.record = record := by rw [← hs]
  have hcolumn : evaluate s (.column c) = _ := (by rw [evaluate] : _ = s.column c)
  rw [column_eq, hrecord] at hcolumn
  rw [valueIn]
  cases hv : record.lookup c with
  | none =>
      rw [hv] at hcolumn
      have hcompare : evaluate s (.compare op (.column c) (.argument (i + 1))) =
          fault s!"no such column: {c.text}" := by
        rw [evaluate, hcolumn]
        rfl
      rw [holds_of_error hcompare]
      rfl
  | some v =>
      rw [hv] at hcolumn
      rw [holds_compare hcolumn hargument, Option.getD_some]
      rcases compareTruth op v w with _ | _ | _ <;> rfl

/-- In the embedded store conditions hold as they do everywhere. -/
theorem embedded_ordinary : Server.Ordinary embedded where
  and l r args record := holds_and _ l r
  equals h c record := by
    rw [embedded_compare h rfl, beq_iff_eq]
    exact compareTruth_text

end RequestLog.Relational
