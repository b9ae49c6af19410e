import Mathlib
import RequestLog.Proofs.Filter.Range
import RequestLog.Proofs.Relational.Ownership
import RequestLog.Proofs.Relational.Server

/-!
# How often a request is joined

Requests stand in a query beside their responses: once for each of them, and once with
absent values where there is none (`answered`). The schema does not say how many
responses a request has. So of a condition on the joined records, what is kept of a
request may be kept several times, and the number of records is the number of requests
only as long as it is not (`sum_eq_countP_iff`).

To say what is kept, more is relied on in a server than before (`Server.Counts`): that it
compares the instants of a range by their microseconds, that the number of an argument does
not matter beside its value, and that it counts what it has kept. The embedded store does
all this.
-/

namespace RequestLog.Relational

open Sql Schema

/-! ## Records of a request -/

/-- A request beside each of the responses to it, or by itself if there are none. -/
def answered (q p : Table) (row : List Value) : List Record :=
  match p.rows.filter fun r => (p.value r "request_id").agrees (q.value row "id") with
  | [] => [q.record row ++ p.absent]
  | responses => responses.map (q.record row ++ p.record ·)

section

variable {db : Database} {q p : Table} {row : List Value}

theorem joined_response (hq : db.Has requestTable q) (hp : db.Has responseTable p)
    (hrow : row ∈ q.rows) :
    joined Registry.joinResponse p (q.record row) = answered q p row := by
  have hid := hq.lookup_record hrow (c := "id") rfl
  have hfits : Fits Registry.joinResponse p (q.record row) :=
    hp.fits rfl rfl (Option.isSome_iff_exists.2 ⟨_, hid⟩) (hq.apart (by decide))
  have hvalue : valueIn (q.record row) Registry.joinResponse.right = q.value row "id" :=
    valueIn_of_lookup hid
  have hkind : Registry.joinResponse.kind = .left := rfl
  have hcolumn : Registry.joinResponse.left.column = "request_id" := rfl
  rw [joined, partners_eq hp.sound.width hfits, hvalue, answered, hkind, hcolumn]
  cases p.rows.filter fun r => (p.value r "request_id").agrees (q.value row "id") with
  | nil => rfl
  | cons r rest => rfl

theorem append_of_mem_answered {record : Record} (h : record ∈ answered q p row) :
    ∃ s, record = q.record row ++ s := by
  rw [answered] at h
  split at h
  · exact ⟨_, List.mem_singleton.1 h⟩
  · obtain ⟨r, -, rfl⟩ := List.mem_map.1 h
    exact ⟨_, rfl⟩

/-- The records of all requests. -/
theorem records_requests (hq : db.Has requestTable q) (hp : db.Has responseTable p) :
    db.records (Registry.rowSource .requestResponseLog).relation =
      .ok (q.rows.flatMap (answered q p), q.absent ++ p.absent) := by
  rw [← List.flatMap_congr fun row hrow => joined_response hq hp hrow]
  exact db.records_join Registry.joinResponse hq.found hp.found

end

section

variable {α : Type} (xs : List α) (f : α → Nat)

theorem countP_le_sum : xs.countP (0 < f ·) ≤ (xs.map f).sum := by
  induction xs with
  | nil => exact Nat.le_refl 0
  | cons x rest ih =>
      rw [List.countP_cons, List.map_cons, List.sum_cons]
      simp only [decide_eq_true_eq]
      split <;> omega

/-- Things are as many as what they come from only if no two come from the same. -/
theorem sum_eq_countP_iff :
    (xs.map f).sum = xs.countP (0 < f ·) ↔ ∀ x ∈ xs, f x ≤ 1 := by
  induction xs with
  | nil => simp
  | cons x rest ih =>
      have hrest := countP_le_sum rest f
      rw [List.forall_mem_cons, List.countP_cons, List.map_cons, List.sum_cons]
      refine Iff.trans ?_ (and_congr_right fun _ => ih)
      simp only [decide_eq_true_eq]
      split <;> omega

end

/-! ## Servers that count -/

namespace Server

variable {m : Type → Type}

/-- Whether a condition is true of a record by itself. -/
def finds (S : Server m) (c : Condition) (record : Record) : Bool :=
  S.holds (c.expr S.backend 0) (c.operands.map S.backend.encode) record

/-- A server that reads conditions as every store does, and counts what it keeps. -/
structure Counts [Monad m] (S : Server m) : Prop where
  ordinary : Ordinary S.holds
  /-- Both row stores keep the instants that a range is about with a precision of
  microseconds. -/
  instants {args : List Scalar} {i : Nat} {t : Instant}
    (h : args[i]? = some (S.backend.encodeInstant t)) {table : RequestLog.Table}
    {created : Field} (hcreated : Registry.rowField table .createdAt = some created)
    (op : Comparison) (record : Record) :
    S.holds (.compare op (.column created.column) (.argument (i + 1))) args record =
      (compareTruth op (valueIn record created.column) (.int t.micros) == some true)
  places (c : Condition) (before after : List Scalar) (record : Record) :
    S.holds (c.expr S.backend before.length)
      (before ++ c.operands.map S.backend.encode ++ after) record = S.finds c record
  counts (name : String) (args : List Scalar) (columns : List Store.ResultColumn)
    (kept : Multiset Record) :
    S.answer [(.countAll, name)] args columns kept =
      pure (.ok [[(name, .number (.int kept.card))]])

end Server

/-! ## The embedded store -/

section

variable (record : Record)

/-- A record with the values of some arguments, as the embedded store is given them. -/
def given (args : List Scalar) : Scope :=
  ⟨args.map fun a => (Store.Sqlite.bind a).getD .null, record, []⟩

theorem evaluate_argument {args : List Scalar} {i : Nat} {a : Scalar}
    (h : args[i]? = some a) :
    evaluate (given record args) (.argument (i + 1)) =
      .ok ((Store.Sqlite.bind a).getD .null) := by
  rw [evaluate, given, Nat.add_sub_cancel, List.getD_eq_getElem?_getD, List.getElem?_map, h]
  rfl

theorem bound_sqlite (kind : Kind) (i : Nat) :
    Backend.sqlite.bound kind i = .argument i := by
  rw [Backend.bound, Backend.beside]
  split <;> rfl

theorem evaluate_pair (s : Scope) (f : String) (l r : Expr) :
    evaluate s (.call f [l, r]) = evaluateAll s [l, r] >>= apply f := by
  rw [evaluate]
  · intro _ _ h
    cases h

theorem evaluateAll_bound (kind : Kind) (vs before after before' after' : List Scalar) :
    evaluateAll (given record (before ++ vs ++ after))
        ((List.range' (before.length + 1) vs.length).map (Backend.sqlite.bound kind)) =
      evaluateAll (given record (before' ++ vs ++ after'))
        ((List.range' (before'.length + 1) vs.length).map (Backend.sqlite.bound kind)) := by
  induction vs generalizing before before' with
  | nil => rfl
  | cons v rest ih =>
      have hrest := ih (before ++ [v]) (before' ++ [v])
      simp only [List.length_append, List.length_singleton, List.append_assoc,
        List.cons_append, List.nil_append] at hrest
      have hplace (b a : List Scalar) : (b ++ v :: rest ++ a)[b.length]? = some v := by simp
      have hv := evaluate_argument record (hplace before after)
      have hv' := evaluate_argument record (hplace before' after')
      simp only [List.append_assoc, List.cons_append] at hv hv' ⊢
      rw [List.length_cons, List.range'_succ, List.range'_succ, List.map_cons, List.map_cons,
        evaluateAll, evaluateAll, bound_sqlite, bound_sqlite, hv, hv', hrest]

/-- Where the arguments of a test stand does not matter to the embedded store. -/
theorem evaluate_test (field : Field) (t : Test) (before after before' after' : List Scalar) :
    evaluate (given record (before ++ t.operands.map Backend.sqlite.encode ++ after))
        (t.expr .sqlite field before.length) =
      evaluate (given record (before' ++ t.operands.map Backend.sqlite.encode ++ after'))
        (t.expr .sqlite field before'.length) := by
  generalize hargs : before ++ t.operands.map Backend.sqlite.encode ++ after = args
  generalize hargs' : before' ++ t.operands.map Backend.sqlite.encode ++ after' = args'
  have hcolumn : (given record args).column field.column =
      (given record args').column field.column := rfl
  have hbound (v : Scalar) (hv : t.operands = [v]) :
      evaluate (given record args) (Backend.sqlite.bound field.kind (before.length + 1)) =
        evaluate (given record args')
          (Backend.sqlite.bound field.kind (before'.length + 1)) := by
    rw [hv] at hargs hargs'
    rw [bound_sqlite, bound_sqlite, evaluate_argument record (a := Backend.sqlite.encode v),
      evaluate_argument record (a := Backend.sqlite.encode v)]
    · rw [← hargs']; simp
    · rw [← hargs]; simp
  cases t with
  | isNull negated => simp only [Test.expr, evaluate, hcolumn]
  | compare op v => simp only [Test.expr, evaluate, hcolumn, hbound v rfl]
  | like v => simp only [Test.expr, evaluate, hcolumn, hbound v rfl]
  | contains v =>
      simp only [Test.expr, Backend.contains, Backend.place, evaluate, evaluate_pair,
        evaluateAll, hcolumn, hbound v rfl]
  | oneOf vs =>
      cases vs with
      | nil => simp only [Test.expr, evaluate]
      | cons v rest =>
          have hall := evaluateAll_bound record field.kind
            ((v :: rest).map Backend.sqlite.encode) before after before' after'
          rw [Test.operands] at hargs hargs'
          rw [List.length_map, hargs, hargs'] at hall
          simp only [Test.expr, evaluate, hcolumn, hall]

theorem evaluate_condition (c : Condition) (before after before' after' : List Scalar) :
    evaluate (given record (before ++ c.operands.map Backend.sqlite.encode ++ after))
        (c.expr .sqlite before.length) =
      evaluate (given record (before' ++ c.operands.map Backend.sqlite.encode ++ after'))
        (c.expr .sqlite before'.length) := by
  induction c generalizing before after before' after' with
  | always => rw [Condition.expr, Condition.expr, evaluate, evaluate]
  | test field t => exact evaluate_test record field t before after before' after'
  | junction op left right ihl ihr =>
      have hl := ihl before (right.operands.map Backend.sqlite.encode ++ after)
        before' (right.operands.map Backend.sqlite.encode ++ after')
      have hr := ihr (before ++ left.operands.map Backend.sqlite.encode) after
        (before' ++ left.operands.map Backend.sqlite.encode) after'
      simp only [List.length_append, List.length_map] at hr
      simp only [Condition.operands, List.map_append, List.append_assoc] at hl hr ⊢
      rw [Condition.expr, Condition.expr, evaluate, evaluate, hl, hr]

theorem holds_congr {s s' : Scope} {e e' : Expr} (h : evaluate s e = evaluate s' e') :
    (engine s).holds e = (engine s').holds e' := by
  change (evaluate s e).toOption.map _ = (evaluate s' e').toOption.map _
  rw [h]

end

/-- A server that keeps what the embedded store keeps, and counts it. -/
def countingServer : Server Id where
  backend := .sqlite
  holds := embedded
  answer items _ _ kept := .ok [items.map fun item => (item.2, .number (.int kept.card))]
  refuse _ _ := .ok []

theorem countingServer_counts : countingServer.Counts where
  ordinary := embedded_ordinary
  instants h _ _ _ op record := embedded_compare h rfl op _ record
  places c before after record := by
    have hplaces := evaluate_condition record c before after [] []
    rw [List.nil_append, List.append_nil] at hplaces
    exact congrArg (· == some true) (holds_congr hplaces)
  counts _ _ _ _ := rfl

end RequestLog.Relational
