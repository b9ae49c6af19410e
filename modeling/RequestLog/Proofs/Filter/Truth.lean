import RequestLog.Proofs.Filter.Legible
import RequestLog.Proofs.Sql.Truth

/-!
# Compiling preserves what a filter says

A filter says something about a row by itself: each leaf looks its column up and
compares what it finds with its operand, and the connectives are those of
three-valued logic (`Filter.truth?`). Nothing in that knows of text, of arguments or
of a dialect. The text that the filter compiles to is read back as an expression, and
in no other way, and evaluated with the arguments in their places it says the same.

The row is the same row on both sides, but a backend keeps instants and truth values
in its own form, and is given operands in another (`Backend.store`, `Backend.given`).
A comparison does not see the difference (`Backend.compare?_given`). The induction
goes along the checked filter, with the arguments of what stands before and behind
kept general.
-/

namespace RequestLog

open Sql

/-! ## What a filter says about a row -/

/-- A row: every physical column holds a datum of its kind, or nothing. -/
structure TypedRow (family : Family) where
  value : ColumnRef → Option Datum
  typed : ∀ t c field d, Registry.resolve? family t c = some field →
    value field.column = some d → d.kind = field.kind

/-- What an operand stands for beside a column of some kind. -/
def Kind.datum? : Kind → Scalar → Option Datum
  | .bool, .bool b => some (.bool b)
  | .int, .int i => some (.int i)
  | .float, .float x => some (.float x)
  | .float, .int i => some (.float (Decimal.ofInt i))
  | .text, .text s => some (.text s)
  | .timestamp, .timestamp t => some (.instant t)
  | _, _ => none

/-- What an operator says about the value of a column of some kind. -/
def Operator.truth? (op : Operator) (like : String → String → Bool) (kind : Kind)
    (v : Option Datum) (operand : Scalar) : Option Truth :=
  match op with
  | .isNull => some (some v.isNone)
  | .isNotNull => some (some v.isSome)
  | .in =>
      match operand, v with
      | .list [], _ => some (some false)
      | .list _, none => some none
      | .list items, some d => do
          let ds ← items.mapM kind.datum?
          let found ← ds.mapM (Datum.compare? .eq d)
          return some (found.any id)
      | _, _ => none
  | .contains =>
      match v, operand with
      | some (.text s), .text needle => some (some (Text.occurs needle s))
      | none, .text _ => some none
      | _, _ => none
  | .like =>
      match v, operand with
      | some (.text s), .text pattern => some (some (like s pattern))
      | none, .text _ => some none
      | _, _ => none
  | .equals | .notEquals | .greaterThan | .lessThan | .greaterOrEqual
  | .lessOrEqual => do
      let c ← op.comparison?
      let d ← kind.datum? operand
      Datum.compareTruth? c v (some d)

def Filter.truth? {family : Family} (like : String → String → Bool)
    (row : TypedRow family) : Filter → Option Truth
  | .all => some (some true)
  | .leaf l => do
      let field ← Registry.resolve? family l.table l.column
      l.operator.truth? like field.kind (row.value field.column) l.value
  | .branch left right op => do
      let t ← Filter.truth? like row left
      let u ← Filter.truth? like row right
      return Relational.junctionTruth op.junction t u

/-! ## What a store keeps -/

/-- The form in which a backend keeps a datum. -/
def Backend.store : Backend → Datum → Datum
  | .sqlite, .instant t => .int t.micros
  | .sqlite, .bool x => .int (if x then 1 else 0)
  | _, d => d

/-- What a backend makes of the argument for a datum. -/
def Backend.given : Backend → Datum → Datum
  | .duckdb, .instant t | .clickhouse, .instant t => .ofMicros t.micros
  | b, d => b.store d

/-- A row as a backend keeps it, in which arguments stand for operands. -/
def Backend.setting (b : Backend) (row : ColumnRef → Option Datum) (args : List Scalar)
    (like : String → String → Bool) : Setting :=
  ⟨b, fun c => (row c).map b.store, args, like⟩

/-! ## Operands and the arguments that stand for them -/

theorem micros_ofMicros (m : Int) :
    (Instant.mk (m / 1000000) ((m % 1000000).toNat * 1000)).micros = m := by
  simp only [Instant.micros]
  omega

theorem Datum.compare?_of_kind (op : Sql.Comparison) {x d : Datum}
    (h : x.kind = d.kind) : ∃ r, compare? op x d = some r := by
  cases x <;> cases d <;> first | exact ⟨_, rfl⟩ | cases h

theorem holds_ofBool (op : Sql.Comparison) (x y : Bool) :
    op.holds (if x then (1 : Int) else 0) (if y then 1 else 0) = op.holds x y := by
  cases op <;> cases x <;> cases y <;> rfl

/-- Storing a datum and giving it as an argument lose nothing that is compared. -/
theorem Backend.compare?_given (b : Backend) (op : Sql.Comparison) {x d : Datum}
    (h : x.kind = d.kind) :
    Datum.compare? op (b.store x) (b.given d) = Datum.compare? op x d := by
  cases x <;> cases d <;> cases h <;> cases b <;>
    simp only [store, given, Datum.compare?, Datum.ofMicros, micros_ofMicros, holds_ofBool]

theorem value_argument {σ : Setting} {i : Nat} {a : Scalar} (h : σ.args[i]? = some a) :
    (Expr.argument (i + 1)).value? σ = a.datum? := by
  rw [Expr.value?, Setting.argument?, h]
  rfl

/-- The argument for an instant, with what a dialect puts around it. -/
theorem Backend.value_instant {σ : Setting} {i : Nat} {t : Instant}
    (h : σ.args[i]? = some (σ.backend.encodeInstant t)) :
    (σ.backend.instant (.argument (i + 1))).value? σ =
      some (some (σ.backend.given (.instant t))) := by
  have hvalue := value_argument h
  rw [Expr.value?] at hvalue
  cases hb : σ.backend <;> rw [hb] at hvalue <;>
    simp [instant, Expr.value?, Expr.values?, hvalue, hb, callValue?, function?, given,
      store, encodeInstant, Scalar.datum?, Datum.instant?, Datum.int?]

theorem Kind.Takes.value_bound {σ : Setting} {kind : Kind} {v w : Scalar} {i : Nat}
    (h : kind.Takes v w) (harg : σ.args[i]? = some (σ.backend.encode w)) :
    ∃ d, kind.datum? v = some d ∧ d.kind = kind ∧
      (σ.backend.bound kind (i + 1)).value? σ = some (some (σ.backend.given d)) := by
  have hvalue := value_argument harg
  cases h with
  | bool x =>
      refine ⟨.bool x, rfl, rfl, hvalue.trans ?_⟩
      cases σ.backend <;> rfl
  | int x => exact ⟨.int x, rfl, rfl, hvalue.trans (by cases σ.backend <;> rfl)⟩
  | float x => exact ⟨.float x, rfl, rfl, hvalue.trans (by cases σ.backend <;> rfl)⟩
  | widened x =>
      refine ⟨.float (Decimal.ofInt x), rfl, rfl, hvalue.trans ?_⟩
      cases σ.backend <;> rfl
  | text s => exact ⟨.text s, rfl, rfl, hvalue.trans (by cases σ.backend <;> rfl)⟩
  | timestamp t => exact ⟨.instant t, rfl, rfl, Backend.value_instant harg⟩

theorem value_boundAll {σ : Setting} {kind : Kind} {items vs : List Scalar}
    (h : List.Forall₂ kind.Takes items vs) (before after : List Scalar)
    (hargs : σ.args = before ++ vs.map σ.backend.encode ++ after) :
    ∃ ds, items.mapM kind.datum? = some ds ∧ (∀ d ∈ ds, d.kind = kind) ∧
      Expr.values? σ ((List.range' (before.length + 1) vs.length).map
        (σ.backend.bound kind)) = some (ds.map fun d => some (σ.backend.given d)) := by
  induction h generalizing before with
  | nil => exact ⟨[], rfl, nofun, rfl⟩
  | @cons v w items vs hv _ ih =>
      have harg : σ.args[before.length]? = some (σ.backend.encode w) := by
        rw [hargs]
        simp
      obtain ⟨d, hd, hkind, hvalue⟩ := hv.value_bound harg
      obtain ⟨ds, hds, hkinds, hvalues⟩ := ih (before ++ [σ.backend.encode w]) (by
        rw [hargs]
        simp)
      refine ⟨d :: ds, ?_, ?_, ?_⟩
      · rw [List.mapM_cons, hd, hds]
        rfl
      · exact List.forall_mem_cons.2 ⟨hkind, hkinds⟩
      · rw [List.length_append] at hvalues
        rw [List.length_cons, List.range'_succ, List.map_cons, Expr.values?, hvalue]
        simp only [List.length_singleton] at hvalues
        rw [hvalues]
        rfl

/-! ## Tests -/

theorem among_absent (w : Option Datum) (ws : List (Option Datum)) :
    Datum.amongTruth? none (w :: ws) = some none := by
  induction ws generalizing w with
  | nil => rfl
  | cons u rest ih =>
      rw [Datum.amongTruth?, ih]
      rfl

theorem orTruth_some (x y : Bool) :
    Relational.orTruth (some x) (some y) = some (x || y) := by
  cases x <;> cases y <;> rfl

theorem among_given {b : Backend} {x : Datum} {ds : List Datum}
    (h : ∀ d ∈ ds, x.kind = d.kind) :
    ∃ found, ds.mapM (Datum.compare? .eq x) = some found ∧
      Datum.amongTruth? (some (b.store x)) (ds.map fun d => some (b.given d)) =
        some (some (found.any id)) := by
  induction ds with
  | nil => exact ⟨[], rfl, rfl⟩
  | cons d rest ih =>
      obtain ⟨hd, hrest⟩ := List.forall_mem_cons.1 h
      obtain ⟨found, hfound, hamong⟩ := ih hrest
      obtain ⟨r, hr⟩ := Datum.compare?_of_kind .eq hd
      refine ⟨r :: found, ?_, ?_⟩
      · rw [List.mapM_cons, hr, hfound]
        rfl
      · rw [List.map_cons, Datum.amongTruth?, hamong, Datum.compareTruth?,
          b.compare?_given .eq hd, hr]
        simp [orTruth_some]

theorem place_pos {needle text : List Char} {n : Nat}
    (h : Text.position? needle text = some n) : 0 < n := by
  cases text with
  | nil =>
      rw [Text.position?] at h
      split at h
      · cases h; decide
      · cases h
  | cons c rest =>
      rw [Text.position?] at h
      split at h
      · cases h; decide
      · obtain ⟨m, -, rfl⟩ := Option.map_eq_some_iff.1 h
        omega

theorem place_holds (needle s : String) :
    Sql.Comparison.gt.holds
        ((Text.position? needle.toList s.toList).getD 0 : Int) 0 =
      Text.occurs needle s := by
  rw [Text.occurs, Sql.Comparison.holds]
  cases h : Text.position? needle.toList s.toList with
  | none => rfl
  | some n => simpa using place_pos h

/-- The place of an operand in a column's text, unknown when there is none. -/
theorem value_place {σ : Setting} {c : ColumnRef} {e : Expr} {needle : String}
    {x : Option Datum} (hx : ∀ d, x = some d → d.kind = .text)
    (hcolumn : σ.row c = x.map σ.backend.store)
    (he : e.value? σ = some (some (.text needle))) :
    ∃ r, Operator.contains.truth? σ.like .text x (.text needle) = some r ∧
      (σ.backend.contains (.column c) e).truth? σ = some r := by
  cases x with
  | none =>
      refine ⟨none, rfl, ?_⟩
      cases hb : σ.backend <;>
        simp [Backend.contains, Backend.place, Expr.truth?, Expr.value?, Expr.values?,
          he, hcolumn, hb, Backend.callValue?, Backend.function?, Datum.compareTruth?]
  | some d =>
      cases d with
      | text s =>
          refine ⟨some (Text.occurs needle s), rfl, ?_⟩
          rw [← place_holds]
          cases hb : σ.backend <;>
            simp [Backend.contains, Backend.place, Expr.truth?, Expr.value?, Expr.values?,
              he, hcolumn, hb, Backend.callValue?, Backend.function?, Backend.store,
              Datum.compareTruth?, Datum.place?, Datum.compare?]
      | bool | int | float | instant => cases hx _ rfl

theorem like_truth {σ : Setting} {c : ColumnRef} {e : Expr} {pattern : String}
    {x : Option Datum} (hx : ∀ d, x = some d → d.kind = .text)
    (hcolumn : σ.row c = x.map σ.backend.store)
    (he : e.value? σ = some (some (.text pattern))) :
    ∃ r, Operator.like.truth? σ.like .text x (.text pattern) = some r ∧
      (Expr.like (.column c) e).truth? σ = some r := by
  cases x with
  | none =>
      refine ⟨none, rfl, ?_⟩
      simp [Expr.truth?, Expr.value?, he, hcolumn, Setting.likeTruth?]
  | some d =>
      cases d with
      | text s =>
          refine ⟨some (σ.like s pattern), rfl, ?_⟩
          have hstore : σ.backend.store (.text s) = .text s := by
            cases σ.backend <;> rfl
          simp [Expr.truth?, Expr.value?, he, hcolumn, hstore, Setting.likeTruth?]
      | bool | int | float | instant => cases hx _ rfl

theorem compare_truth {σ : Setting} {c : ColumnRef} {e : Expr} {op : Sql.Comparison}
    {x : Option Datum} {d : Datum} (hx : ∀ y, x = some y → y.kind = d.kind)
    (hcolumn : σ.row c = x.map σ.backend.store)
    (he : e.value? σ = some (some (σ.backend.given d))) :
    ∃ r, Datum.compareTruth? op x (some d) = some r ∧
      (Expr.compare op (.column c) e).truth? σ = some r := by
  cases x with
  | none =>
      refine ⟨none, rfl, ?_⟩
      simp [Expr.truth?, Expr.value?, he, hcolumn, Datum.compareTruth?]
  | some y =>
      have hkind := hx y rfl
      obtain ⟨r, hr⟩ := Datum.compare?_of_kind op hkind
      refine ⟨some r, by rw [Datum.compareTruth?, hr]; rfl, ?_⟩
      simp [Expr.truth?, Expr.value?, he, hcolumn, Datum.compareTruth?,
        σ.backend.compare?_given op hkind, hr]

theorem oneOf_truth {σ : Setting} {c : ColumnRef} {kind : Kind} {es : List Expr}
    {v : Scalar} {items : List Scalar} {x : Option Datum} {ds : List Datum}
    (hx : ∀ d, x = some d → d.kind = kind)
    (hcolumn : σ.row c = x.map σ.backend.store)
    (hds : (v :: items).mapM kind.datum? = some ds) (hkinds : ∀ d ∈ ds, d.kind = kind)
    (hes : Expr.values? σ es = some (ds.map fun d => some (σ.backend.given d))) :
    ∃ r, Operator.in.truth? σ.like kind x (.list (v :: items)) = some r ∧
      (Expr.oneOf (.column c) es).truth? σ = some r := by
  cases x with
  | none =>
      refine ⟨none, rfl, ?_⟩
      cases ds with
      | nil =>
          rw [List.mapM_cons] at hds
          cases hv : kind.datum? v <;> cases hrest : items.mapM kind.datum? <;>
            simp [hv, hrest] at hds
      | cons d rest =>
          simp [Expr.truth?, Expr.value?, hes, hcolumn, among_absent]
  | some y =>
      obtain ⟨found, hfound, hamong⟩ := among_given (b := σ.backend)
        fun d hd => (hx y rfl).trans (hkinds d hd).symm
      refine ⟨some (found.any id), ?_, ?_⟩
      · simp only [Operator.truth?, hds, Option.bind_eq_bind, Option.bind_some, hfound]
        rfl
      · simp [Expr.truth?, Expr.value?, hes, hcolumn, hamong]

theorem Operator.truth?_of_comparison {op : Operator} {c : Sql.Comparison}
    {like : String → String → Bool} {kind : Kind} {x : Option Datum} {v : Scalar}
    {d : Datum} (hc : op.comparison? = some c) (hd : kind.datum? v = some d) :
    op.truth? like kind x v = Datum.compareTruth? c x (some d) := by
  cases op <;> cases hc <;> simp [truth?, comparison?, hd]

/-- A test says of the stored column what its operator says of the column. -/
theorem Operator.Asks.truth {op : Operator} {field : Field} {v : Scalar} {t : Test}
    (h : op.Asks field.kind v t) (hsupports : op.supports field.kind = true)
    {σ : Setting} {x : Option Datum} (hx : ∀ d, x = some d → d.kind = field.kind)
    (hcolumn : σ.row field.column = x.map σ.backend.store)
    {before after : List Scalar}
    (hargs : σ.args = before ++ t.operands.map σ.backend.encode ++ after) :
    ∃ r, op.truth? σ.like field.kind x v = some r ∧
      (t.expr σ.backend field before.length).truth? σ = some r := by
  have harg : ∀ w, t.operands = [w] →
      σ.args[before.length]? = some (σ.backend.encode w) := by
    intro w hw
    rw [hargs, hw]
    simp
  cases h with
  | isNull =>
      refine ⟨some x.isNone, rfl, ?_⟩
      simp [Test.expr, Expr.truth?, Expr.value?, hcolumn]
  | isNotNull =>
      refine ⟨some x.isSome, rfl, ?_⟩
      simp [Test.expr, Expr.truth?, Expr.value?, hcolumn]
  | @«in» items vs hall =>
      obtain ⟨ds, hds, hkinds, hvalues⟩ := value_boundAll hall before after hargs
      cases hall with
      | nil => exact ⟨some false, by cases x <;> rfl, rfl⟩
      | cons => exact oneOf_truth hx hcolumn hds hkinds hvalues
  | @contains _ w hw =>
      obtain ⟨d, hd, hkind, hvalue⟩ := hw.value_bound (harg w rfl)
      have htext : field.kind = .text := of_decide_eq_true hsupports
      rw [htext] at hx hw hd ⊢
      cases hw
      cases hd
      refine value_place hx hcolumn (hvalue.trans ?_)
      cases σ.backend <;> rfl
  | @like _ w hw =>
      obtain ⟨d, hd, hkind, hvalue⟩ := hw.value_bound (harg w rfl)
      have htext : field.kind = .text := of_decide_eq_true hsupports
      rw [htext] at hx hw hd ⊢
      cases hw
      cases hd
      refine like_truth hx hcolumn (hvalue.trans ?_)
      cases σ.backend <;> rfl
  | @compare _ c _ w hc hw =>
      obtain ⟨d, hd, hkind, hvalue⟩ := hw.value_bound (harg w rfl)
      rw [truth?_of_comparison hc hd]
      exact compare_truth (fun y hy => (hx y hy).trans hkind.symm) hcolumn hvalue

/-! ## Trees -/

/-- A checked filter says of a row what its condition says of the stored row, the
arguments of the condition standing in the middle of all arguments. -/
theorem Filter.Checks.truth {b : Backend} {source : Source} {f : Filter}
    {c : Condition} (h : f.Checks b.family source c) (like : String → String → Bool)
    (row : TypedRow b.family) (before after : List Scalar) :
    ∃ r, f.truth? like row = some r ∧
      (c.expr b before.length).truth? (b.setting row.value
        (before ++ c.operands.map b.encode ++ after) like) = some r := by
  induction h generalizing before after with
  | all => exact ⟨some true, rfl, rfl⟩
  | @leaf l field t _ hresolve hsupports hasks =>
      obtain ⟨r, hr, hr'⟩ := hasks.truth
        (σ := b.setting row.value (before ++ t.operands.map b.encode ++ after) like)
        hsupports (row.typed _ _ field · hresolve) rfl rfl
      refine ⟨r, ?_, hr'⟩
      rw [Filter.truth?, hresolve]
      exact hr
  | @branch left right cl cr op hl hr ihl ihr =>
      obtain ⟨x, hx, hx'⟩ := ihl before (cr.operands.map b.encode ++ after)
      obtain ⟨y, hy, hy'⟩ := ihr (before ++ cl.operands.map b.encode) after
      refine ⟨Relational.junctionTruth op.junction x y, ?_, ?_⟩
      · rw [Filter.truth?, hx, hy]
        rfl
      · simp only [List.length_append, List.length_map] at hy'
        simp only [Condition.operands, List.map_append, List.append_assoc] at hx' hy' ⊢
        simp only [Condition.expr, Expr.truth?, hx', hy']
        rfl

/-! ## Compiled filters -/

/-- What a compiled filter's text is read as, and it is read in one way only, says
of every stored row what the scoped filter says of the row. -/
theorem Backend.compile_preserves_truth {b : Backend} {s : ScopedFilter} {q : Query}
    (h : b.compile s = .ok q) (like : String → String → Bool)
    (row : TypedRow b.family) :
    ∃ e r, Reads 0 (tokens q.text) e ∧
      (∀ e', Reads 0 (tokens q.text) e' → e' = e) ∧
      s.tree.truth? like row = some r ∧
      e.truth? (b.setting row.value q.args like) = some r := by
  obtain ⟨c, hc, rfl⟩ := compile_ok h
  obtain ⟨source, -, hchecks⟩ := ScopedFilter.checks_of_check hc
  obtain ⟨r, hr, hr'⟩ := hchecks.truth like row [] []
  have hreads := hchecks.legible.reads (b := b) (c.arguments_expr b 0)
  refine ⟨c.expr b 0, r, hreads, fun e' h' => h'.unique hreads, hr, ?_⟩
  simpa using hr'

/-- A row of `org_1` of which nothing else is known. -/
def anonymousRow (family : Family) : TypedRow family where
  value c := if c.column = "organization_id" then some (.text "org_1") else none
  typed t c field d h hd := by
    split at hd
    · next hname =>
        cases hd
        cases family <;> cases t <;> cases c <;> cases h <;>
          first | rfl | exact absurd hname (by decide)
    · cases hd

theorem compile_preserves_truth_anonymous :
    ∃ q, Backend.duckdb.compile sampleScope = .ok q ∧
      ∃ e r, Reads 0 (tokens q.text) e ∧
        (∀ e', Reads 0 (tokens q.text) e' → e' = e) ∧
        sampleScope.tree.truth? Relational.like (anonymousRow .column) = some r ∧
        e.truth? (Backend.duckdb.setting (anonymousRow .column).value q.args
          Relational.like) = some r := by
  obtain ⟨q, h⟩ := sampleScope_compiles .duckdb
  exact ⟨q, h, Backend.compile_preserves_truth h _ _⟩

end RequestLog
