import RequestLog.Metric.Run
import RequestLog.Proofs.Filter.Range
import RequestLog.Proofs.Json.Decode

/-!
# What a metric asks and what it answers

A request goes through four stages before a store is asked: the organization has to be
named, the body has to be read, and the query has to compile for the store. The first
stage that fails decides the answer, and the store never hears of the request
(`Metric.Stage`). A query that is asked is asked once, and it is the store's own: it was
compiled for the backend that the store reports.

What the store answers settles the rest (`Metric.Concludes`). All rows are held against
the declared shape before they are counted, so one bad row outweighs a wrong number of
them.

To count the calls, an executor is given a list to write them down in.
-/

namespace RequestLog

/-- A query that a store was asked, with the columns that its rows were to have. -/
structure Call where
  query : Query
  columns : List Store.ResultColumn

namespace Executor

variable {m : Type → Type} [Monad m]

/-- The executor, writing down behind the calls so far each one that it gets. -/
def recorded (e : Executor m) : Executor (StateT (List Call) m) where
  backend := e.backend
  fetch q columns := do
    modify (· ++ [⟨q, columns⟩])
    StateT.lift (e.fetch q columns)

theorem run_fetch_recorded [LawfulMonad m] (e : Executor m) (q : Query)
    (columns : List Store.ResultColumn) (calls : List Call) :
    (e.recorded.fetch q columns).run calls = (do
      let answer ← e.fetch q columns
      return (answer, calls ++ [⟨q, columns⟩])) := by
  simp [recorded]

end Executor

namespace Metric

/-! ## The stages of a request -/

/-- The first stage of a request that fails, or the query when none does. -/
inductive Stage (metric : Metric) (prices : Pricing.PriceTable) (b : Backend)
    (org text : String) : Except FilterError Query → Prop where
  | blank : Text.blank org = true → Stage metric prices b org text (.error .invalidTenant)
  | unread {e : FilterError} : Text.blank org = false → RequestBody.parse text = .error e →
      Stage metric prices b org text (.error e)
  | compiled {body : RequestBody} (named : Text.blank org = false) :
      RequestBody.parse text = .ok body →
      Stage metric prices b org text (metric.query prices b ⟨org, named⟩ body)

theorem stage_plan (metric : Metric) (prices : Pricing.PriceTable) (b : Backend)
    (org text : String) :
    metric.Stage prices b org text (metric.plan prices b org text) := by
  rw [plan, Tenant.ofName]
  split
  · next named =>
      cases hparse : RequestBody.parse text with
      | error e => exact .unread named hparse
      | ok body => exact .compiled named hparse
  · next hblank => exact .blank ((Bool.not_eq_false _).mp hblank)

theorem backend_of_plan {metric : Metric} {prices : Pricing.PriceTable} {b : Backend}
    {org text : String} {q : Query} (h : metric.plan prices b org text = .ok q) :
    q.backend = b := by
  obtain ⟨tenant, -, h⟩ := ok_of_bind h
  obtain ⟨body, -, h⟩ := ok_of_bind h
  obtain ⟨_, _, _, _, -, -, -, -, rfl⟩ := Backend.select_ok h
  rfl

/-! ## The answer of a store -/

/-- A row with a number of the declared type in the one column that a metric asks for. -/
inductive Fits (metric : Metric) (row : Store.Row) : MetricValue → Prop where
  | count {i : Int} : metric.column.kind = .int →
      Json.get? metric.column.name row = some (.number (.int i)) →
      Decimal.fitsSigned 64 i = true → Fits metric row (.count i)
  | amount {n : Json.Number} : metric.column.kind = .float →
      Json.get? metric.column.name row = some (.number n) → Fits metric row (.amount n.toFloat)

/-- What becomes of a store's answer. -/
inductive Concludes (metric : Metric) :
    Except Store.FetchError (List Store.Row) → Except MetricError MetricValue → Prop where
  | failed {e : Store.FetchError} : Concludes metric (.error e) (.error (.fetch e))
  | misshapen {rows : List Store.Row} {row : Store.Row} {reason : String} : row ∈ rows →
      (∀ v, ¬ metric.Fits row v) →
      Concludes metric (.ok rows) (.error (.fetch (.decode (.shape reason))))
  | miscounted {rows : List Store.Row} : (∀ row ∈ rows, ∃ v, metric.Fits row v) →
      rows.length ≠ 1 → Concludes metric (.ok rows) (.error (.unexpectedRows rows.length))
  | answered {row : Store.Row} {v : MetricValue} : metric.Fits row v →
      Concludes metric (.ok [row]) (.ok v)

theorem kind_column (metric : Metric) :
    metric.column.kind = .int ∨ metric.column.kind = .float := by
  cases metric
  · exact .inl rfl
  · exact .inl rfl
  · exact .inr rfl
  · exact .inr rfl

theorem readRow_ok_iff {metric : Metric} {row : Store.Row} {v : MetricValue} :
    metric.readRow row = .ok v ↔ metric.Fits row v := by
  constructor
  · intro h
    obtain ⟨given, hgiven, h⟩ := ok_of_bind h
    rw [Json.require_ok_iff] at hgiven
    split at h
    · next hkind =>
        obtain ⟨i, hi, rfl⟩ := ok_of_map h
        unfold Json.asInt64 Json.Number.toRange at hi
        repeat' split at hi
        all_goals cases hi
        exact .count hkind hgiven ‹_›
    · next hkind =>
        obtain ⟨x, hx, rfl⟩ := ok_of_map h
        unfold Json.asFloat at hx
        split at hx
        · cases hx
          exact .amount (metric.kind_column.resolve_left hkind) hgiven
        · cases hx
  · intro h
    cases h with
    | @count i hkind hget hfits =>
        have hi : Json.asInt64 (.number (.int i)) = .ok i := if_pos hfits
        rw [readRow, hget, hkind]
        change (Json.asInt64 (.number (.int i))).map MetricValue.count = _
        rw [hi]
        rfl
    | amount hkind hget =>
        rw [readRow, hget, hkind]
        rfl

/-- Rows are read before they are counted, so a misfit among them is what is reported. -/
theorem concludes_conclude (metric : Metric)
    (answer : Except Store.FetchError (List Store.Row)) :
    metric.Concludes answer (metric.conclude answer) := by
  cases answer with
  | error e => exact .failed
  | ok rows =>
      rw [conclude]
      cases hread : rows.mapM metric.readRow with
      | error f =>
          obtain ⟨row, hrow, hf⟩ := exists_of_mapM_error hread
          refine .misshapen hrow fun v hfits => ?_
          rw [readRow_ok_iff.2 hfits] at hf
          cases hf
      | ok values =>
          have hfits : List.Forall₂ metric.Fits rows values :=
            (forall₂_of_mapM hread).imp fun _ _ => readRow_ok_iff.1
          have hall : ∀ row ∈ rows, ∃ v, metric.Fits row v :=
            ((List.forall₂_and_left _ _).1 (hfits.imp fun _ v hv => ⟨⟨v, hv⟩, hv⟩)).1
          have hlength := hfits.length_eq
          cases hfits with
          | nil => exact .miscounted hall (by decide)
          | @cons row v rows vs hv hrest =>
              cases hrest with
              | nil => exact .answered hv
              | cons hv' hrest =>
                  have hcount := Concludes.miscounted hall (by simp)
                  rw [hlength] at hcount
                  exact hcount

/-! ## A whole run -/

variable {m : Type → Type} [Monad m]

/-- A run, with the calls that it adds to those before it. -/
theorem run_recorded [LawfulMonad m] (metric : Metric) (executor : Executor m)
    (prices : Pricing.PriceTable) (org text : String) (calls : List Call) :
    (metric.run executor.recorded prices org text).run calls =
      match metric.plan prices executor.backend org text with
      | .error e => pure (.error (.filter e), calls)
      | .ok q => do
          let answer ← executor.fetch q [metric.column]
          return (metric.conclude answer, calls ++ [⟨q, [metric.column]⟩]) := by
  have hbackend : executor.recorded.backend = executor.backend := rfl
  rw [run, hbackend]
  cases metric.plan prices executor.backend org text with
  | error e => rfl
  | ok q => simp [Executor.run_fetch_recorded]

/-- Writing the calls down changes nothing else about a run. -/
theorem fst_run_recorded [LawfulMonad m] (metric : Metric) (executor : Executor m)
    (prices : Pricing.PriceTable) (org text : String) (calls : List Call) :
    Prod.fst <$> (metric.run executor.recorded prices org text).run calls =
      metric.run executor prices org text := by
  rw [run_recorded, run]
  cases metric.plan prices executor.backend org text with
  | error e => simp
  | ok q => simp

/-- A metric gives a number exactly if its store answers with one good row, and asks the
store once, with a query of the store's own, exactly if the request is valid. -/
theorem run_outcome [LawfulMonad m] (metric : Metric) (executor : Executor m)
    (prices : Pricing.PriceTable) (org text : String) (calls : List Call) :
    Prod.fst <$> (metric.run executor.recorded prices org text).run calls =
      metric.run executor prices org text ∧
    ∃ stage, metric.Stage prices executor.backend org text stage ∧
      match stage with
      | .error e =>
          (metric.run executor.recorded prices org text).run calls =
            pure (.error (.filter e), calls)
      | .ok q =>
          q.backend = executor.backend ∧ q.admittedBy executor.backend = .ok () ∧
          ∃ outcome : Except Store.FetchError (List Store.Row) →
              Except MetricError MetricValue,
            (∀ answer, metric.Concludes answer (outcome answer)) ∧
            (metric.run executor.recorded prices org text).run calls = (do
              let answer ← executor.fetch q [metric.column]
              return (outcome answer, calls ++ [⟨q, [metric.column]⟩])) := by
  have hrun := metric.run_recorded executor prices org text calls
  refine ⟨metric.fst_run_recorded executor prices org text calls, _,
    metric.stage_plan prices executor.backend org text, ?_⟩
  cases hplan : metric.plan prices executor.backend org text with
  | error e =>
      rw [hplan] at hrun
      exact hrun
  | ok q =>
      have hbackend := backend_of_plan hplan
      rw [hplan] at hrun
      exact ⟨hbackend, if_pos hbackend, metric.conclude, metric.concludes_conclude, hrun⟩

end Metric

/-! ## A store that counts -/

def countedRow : Store.Row := [("count", .number (.int 3))]

theorem fits_countedRow {v : MetricValue} (h : Metric.totalRequests.Fits countedRow v) :
    v = .count 3 := by
  cases h with
  | count _ hget _ => cases hget; rfl
  | amount hkind _ => cases hkind

/-- A store that counts three rows, whatever it is asked. -/
def threeCounted : Executor Id where
  backend := .sqlite
  fetch _ _ := pure (.ok [countedRow])

def nothingPriced : Pricing.PriceTable := ⟨[], .free, by simp, by decide⟩

/-- It is asked once for the requests of "org_1", and they are three. -/
theorem totalRequests_threeCounted :
    ∃ q : Query, q.backend = .sqlite ∧
      (Metric.totalRequests.run threeCounted.recorded nothingPriced "org_1" leapText).run [] =
        (.ok (.count 3), [⟨q, [Metric.totalRequests.column]⟩]) := by
  obtain ⟨-, stage, hstage, hrun⟩ :=
    Metric.run_outcome .totalRequests threeCounted nothingPriced "org_1" leapText []
  cases hstage with
  | blank hblank => exact absurd hblank (by decide)
  | unread _ hparse =>
      rw [parse_leapText] at hparse
      cases hparse
  | compiled named hparse =>
      rw [parse_leapText] at hparse
      cases hparse
      obtain ⟨q, hq⟩ : ∃ q, Metric.totalRequests.query nothingPriced .sqlite ⟨"org_1", named⟩
          leapBody = .ok q := ⟨_, rfl⟩
      have hstage : Metric.totalRequests.query nothingPriced threeCounted.backend
          ⟨"org_1", named⟩ leapBody = .ok q := hq
      rw [hstage] at hrun
      obtain ⟨hbackend, -, outcome, hconcludes, hrun⟩ := hrun
      refine ⟨q, hbackend, hrun.trans (Prod.ext ?_ rfl)⟩
      show outcome (.ok [countedRow]) = .ok (.count 3)
      have hfits : Metric.totalRequests.Fits countedRow (.count 3) := .count rfl rfl (by decide)
      have hconcluded := hconcludes (.ok [countedRow])
      generalize outcome (.ok [countedRow]) = concluded at hconcluded ⊢
      cases hconcluded with
      | misshapen hrow hnone =>
          cases List.mem_singleton.1 hrow
          exact absurd hfits (hnone _)
      | miscounted _ hcount => exact absurd rfl hcount
      | answered hv => rw [fits_countedRow hv]

end RequestLog
