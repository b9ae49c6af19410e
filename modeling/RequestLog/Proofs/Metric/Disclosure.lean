import RequestLog.Program
import RequestLog.Proofs.Metric.Outcome

/-!
# What a caller is told of a failure

A metric that fails is reported in one line, which is all that its caller sees of the
failure. The line consists of the category and of words that go with it, and only the words
for a bad request are made from anything else. Those are about the caller's own filter.

So what a store says cannot be seen from outside. Two runs of one request, in two worlds
whose stores fail in whatever ways they like, end in the same line as soon as the category is
the same (`Metric.report_hides_store`). That a store was asked at all is told from the calls.
-/

namespace RequestLog

namespace MetricError

/-- The line in which a failure is reported. -/
def report (e : MetricError) : String := s!"{e.category.title}: {e.publicMessage}"

theorem report_eq {e e' : MetricError} (hsame : e.category = e'.category)
    (hother : e.category ≠ .badRequest) : e.report = e'.report := by
  have hwords : e.publicMessage = e'.publicMessage := by
    rw [publicMessage, publicMessage, ← hsame]
    cases hcategory : e.category with
    | badRequest => exact absurd hcategory hother
    | unauthorized => rfl
    | storeUnavailable => rfl
    | timeout => rfl
    | internal => rfl
  rw [report, report, hsame, hwords]

/-- Bad requests and unnamed organizations are not a store's doing. -/
theorem filter_of_category {e : MetricError}
    (h : e.category = .badRequest ∨ e.category = .unauthorized) : ∃ f, e = .filter f := by
  cases e with
  | filter f => exact ⟨f, rfl⟩
  | unexpectedRows count => rcases h with h | h <;> cases h
  | fetch e =>
      -- Whether a failure may pass decides its category, so a `store` failure is two cases.
      rcases e with ⟨b, reason, _ | _⟩ | _ | _ | _ | _ <;> rcases h with h | h <;> cases h

/-- The failures for which a caller is told to come again. -/
theorem of_category_storeUnavailable {e : MetricError} (h : e.category = .storeUnavailable) :
    ∃ b reason, e = .fetch (.store b reason true) ∨ e = .fetch (.unavailable b reason) := by
  cases e with
  | filter e => cases e <;> cases h
  | unexpectedRows count => cases h
  | fetch e =>
      cases e with
      | store b reason mayRetry =>
          cases mayRetry with
          | false => cases h
          | true => exact ⟨b, reason, .inl rfl⟩
      | timeout b seconds => cases h
      | dialect compiled executor => cases h
      | decode e => cases h
      | unavailable b reason => exact ⟨b, reason, .inr rfl⟩

end MetricError

namespace Metric

/-- No answer of a store becomes a complaint about the request. -/
theorem conclude_ne_filter (metric : Metric) (answer : Except Store.FetchError (List Store.Row))
    (f : FilterError) : metric.conclude answer ≠ .error (.filter f) := by
  intro h
  have hconcludes := metric.concludes_conclude answer
  rw [h] at hconcludes
  cases hconcludes

/-! ## A run in a world -/

/-- The store that serves the metric. -/
def server {m : Type → Type} (metric : Metric) (rows columns : Executor m) : Executor m :=
  match metric.family with
  | .row => rows
  | .column => columns

theorem server_recorded {m : Type → Type} [Monad m] (metric : Metric)
    (rows columns : Executor m) :
    metric.server rows.recorded columns.recorded = (metric.server rows columns).recorded := by
  rw [server, server]
  cases metric.family <;> rfl

variable {σ : Type}

/-- What a request ends with in a world, and what the stores were asked for it. -/
def taken (metric : Metric) (rows columns : Executor (StateM σ)) (prices : Pricing.PriceTable)
    (org text : String) (world : σ) : Except MetricError MetricValue × List Call :=
  (((metric.runOn rows.recorded columns.recorded prices org text).run []).run world).1

theorem taken_eq (metric : Metric) (rows columns : Executor (StateM σ))
    (prices : Pricing.PriceTable) (org text : String) (world : σ) :
    metric.taken rows columns prices org text world =
      match metric.plan prices (metric.server rows columns).backend org text with
      | .error e => (.error (.filter e), [])
      | .ok q =>
          (metric.conclude (((metric.server rows columns).fetch q [metric.column]).run world).1,
            [⟨q, [metric.column]⟩]) := by
  have hrun := metric.run_recorded (metric.server rows columns) prices org text []
  rw [← server_recorded] at hrun
  refine (congrArg (fun run : StateM σ _ => (run.run world).1) hrun).trans ?_
  cases metric.plan prices (metric.server rows columns).backend org text with
  | error e => rfl
  | ok q => rfl

/-- The calls of a run change nothing about how it ends. -/
theorem fst_taken (metric : Metric) (rows columns : Executor (StateM σ))
    (prices : Pricing.PriceTable) (org text : String) (world : σ) :
    (metric.taken rows columns prices org text world).1 =
      ((metric.runOn rows columns prices org text).run world).1 := by
  have hrun := metric.fst_run_recorded (metric.server rows columns) prices org text []
  rw [← server_recorded] at hrun
  exact congrArg (fun run : StateM σ _ => (run.run world).1) hrun

/-- The store is asked exactly if the request is valid, and what it answers is concluded. -/
theorem taken_cases (metric : Metric) (rows columns : Executor (StateM σ))
    (prices : Pricing.PriceTable) (org text : String) (world : σ) :
    (∃ f, metric.taken rows columns prices org text world = (.error (.filter f), [])) ∨
      ∃ answer calls, calls ≠ [] ∧
        metric.taken rows columns prices org text world = (metric.conclude answer, calls) := by
  rw [taken_eq]
  cases metric.plan prices (metric.server rows columns).backend org text with
  | error f => exact .inl ⟨f, rfl⟩
  | ok q => exact .inr ⟨_, [⟨q, [metric.column]⟩], List.cons_ne_nil _ _, rfl⟩

/-- The stores are left alone by exactly those failures that are a filter's. -/
theorem calls_eq_nil_iff {metric : Metric} {rows columns : Executor (StateM σ)}
    {prices : Pricing.PriceTable} {org text : String} {world : σ} {e : MetricError}
    {calls : List Call}
    (h : metric.taken rows columns prices org text world = (.error e, calls)) :
    calls = [] ↔ ∃ f, e = .filter f := by
  rcases metric.taken_cases rows columns prices org text world with
    ⟨f, htaken⟩ | ⟨answer, asked, hasked, htaken⟩
  · obtain ⟨he, hcalls⟩ := Prod.mk.inj (h.symm.trans htaken)
    exact iff_of_true hcalls ⟨f, Except.error.inj he⟩
  · obtain ⟨he, rfl⟩ := Prod.mk.inj (h.symm.trans htaken)
    refine iff_of_false hasked ?_
    rintro ⟨f, rfl⟩
    exact metric.conclude_ne_filter answer f he.symm

/-- What a command tells of a metric is told of the run that is taken here. -/
theorem measure_run (metric : Metric) (o : Surroundings (StateM σ))
    (d : Program.Deployment (StateM σ)) (org body : String) {world world' : σ} {text : String}
    (hbody : (Program.readBody o.files body).run.run world = (.ok text, world')) :
    ((d.measure o metric org body).run.run world).1 =
      match (metric.taken (d.rows.executor o.clock) (d.columns.executor o.clock) d.prices org
        text world').1 with
      | .ok value =>
          .ok (Program.shown (.object [("metric", .text metric.name), ("value", value.toJson)]))
      | .error e => .error e.report := by
  rw [fst_taken, Program.Deployment.measure, ExceptT.run_bind, StateT.run_bind, hbody]
  simp only [ExceptT.run_bind, ExceptT.run_lift, bind_map_left]
  refine (congrArg Prod.fst (StateT.run_bind
    (metric.runOn (d.rows.executor o.clock) (d.columns.executor o.clock) d.prices org text)
    _ world')).trans ?_
  rcases (metric.runOn (d.rows.executor o.clock) (d.columns.executor o.clock) d.prices org
    text).run world' with ⟨_ | _, world''⟩
  · rfl
  · rfl

/-- Behind a store two requests that fail in one category are reported in one line. The
category is then never a caller's, a caller is told to come again only for a failure that may
pass, and whenever the request is complained about no store was asked. The line that
is reported is the one that a command ends with. -/
theorem report_hides_store {τ : Type} (metric : Metric) (org text : String)
    (rows columns : Executor (StateM σ)) (rows' columns' : Executor (StateM τ))
    (prices prices' : Pricing.PriceTable) (world : σ) (world' : τ) {e e' : MetricError}
    {calls calls' : List Call}
    (h : metric.taken rows columns prices org text world = (.error e, calls))
    (h' : metric.taken rows' columns' prices' org text world' = (.error e', calls')) :
    (calls ≠ [] → e.category = e'.category → calls' ≠ [] ∧ e.report = e'.report) ∧
      (calls ≠ [] → e.category ≠ .badRequest ∧ e.category ≠ .unauthorized) ∧
      (e.category = .storeUnavailable →
        ∃ b reason, e = .fetch (.store b reason true) ∨ e = .fetch (.unavailable b reason)) ∧
      (e.category = .badRequest → calls = [] ∧ ∃ f, e = .filter f) ∧
      ∀ (o : Surroundings (StateM σ)) (d : Program.Deployment (StateM σ)) (body : String)
        (before : σ), d.rows.executor o.clock = rows → d.columns.executor o.clock = columns →
        d.prices = prices →
        (Program.readBody o.files body).run.run before = (.ok text, world) →
        ((d.measure o metric org body).run.run before).1 = .error e.report := by
  have hasked : calls ≠ [] → e.category ≠ .badRequest ∧ e.category ≠ .unauthorized := by
    intro hcalls
    have hnot : ¬∃ f, e = .filter f := fun hf => hcalls ((calls_eq_nil_iff h).2 hf)
    exact ⟨fun hbad => hnot (MetricError.filter_of_category (.inl hbad)),
      fun hunnamed => hnot (MetricError.filter_of_category (.inr hunnamed))⟩
  refine ⟨fun hcalls hsame => ?_, hasked, MetricError.of_category_storeUnavailable,
    fun hbad => ?_, ?_⟩
  · obtain ⟨hbad, hunnamed⟩ := hasked hcalls
    refine ⟨fun hcalls' => ?_, MetricError.report_eq hsame hbad⟩
    obtain ⟨f, rfl⟩ := (calls_eq_nil_iff h').1 hcalls'
    cases f with
    | invalidTenant => exact hunnamed hsame
    | _ => exact hbad hsame
  · have hf := MetricError.filter_of_category (.inl hbad)
    exact ⟨(calls_eq_nil_iff h).2 hf, hf⟩
  · rintro o d body before rfl rfl rfl hbody
    rw [metric.measure_run o d org body hbody, h]

end Metric

/-! ## A store that tells all -/

/-- A store that fails, and says all that it knows. -/
def indiscreet : Executor (StateM String) where
  backend := .sqlite
  fetch _ _ := do return .error (.store .sqlite (← get) false)

theorem taken_indiscreet (secret : String) :
    ∃ calls, calls ≠ [] ∧
      Metric.totalRequests.taken indiscreet indiscreet nothingPriced "org_1" leapText secret =
        (.error (.fetch (.store .sqlite secret false)), calls) := by
  have hplan : ∃ q, Metric.totalRequests.plan nothingPriced .sqlite "org_1" leapText =
      .ok q := by
    change ∃ q, (RequestBody.parse leapText >>= _) = .ok q
    rw [parse_leapText]
    exact ⟨_, rfl⟩
  obtain ⟨q, hq⟩ := hplan
  refine ⟨[⟨q, [Metric.totalRequests.column]⟩], List.cons_ne_nil _ _, ?_⟩
  rw [Metric.taken_eq]
  change (match Metric.totalRequests.plan nothingPriced .sqlite "org_1" leapText with
    | .error e => _
    | .ok q => _) = _
  rw [hq]
  rfl

/-- Whatever it knows, it is reported in the same line. -/
theorem indiscreet_hidden :
    ∃ calls calls' e e',
      Metric.totalRequests.taken indiscreet indiscreet nothingPriced "org_1" leapText
        "no such column: request.latency" = (.error e, calls) ∧
      Metric.totalRequests.taken indiscreet indiscreet nothingPriced "org_1" leapText
        "database disk image is malformed" = (.error e', calls') ∧
      calls ≠ [] ∧ e.category = e'.category ∧ e.report = e'.report := by
  obtain ⟨calls, hcalls, htaken⟩ := taken_indiscreet "no such column: request.latency"
  obtain ⟨calls', -, htaken'⟩ := taken_indiscreet "database disk image is malformed"
  refine ⟨calls, calls', _, _, htaken, htaken', hcalls, rfl, ?_⟩
  exact ((Metric.report_hides_store .totalRequests "org_1" leapText indiscreet indiscreet
    indiscreet indiscreet nothingPriced nothingPriced _ _ htaken htaken').1 hcalls rfl).2

end RequestLog
