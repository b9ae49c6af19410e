import RequestLog.Proofs.Store.Bindable
import RequestLog.Store.Service

/-!
# Embedded stores that are closed

An embedded store can be asked and closed in any order, as often as anybody likes. From the
first time that it is closed on, its answers are settled by the operations alone (`refusal`):
a query gets the failure of a closed store, unless a check that comes before has a failure of
its own for it, and to close it again does nothing and succeeds, even where closing it failed.

The two stores are not built alike. One is a pool of connections, whose client says that the
pool is closed, and this failure is then read as one of the store; the other keeps its
connection behind a guard. What they have in common is the order of the checks
(`Asking.refusal`), so the argument is made once for anything that is asked in that order.

A store that is closed answers without waiting for anything. That this is soon enough is all
that is supposed of the clock (`Clock.Prompt`).
-/

namespace RequestLog

variable {m : Type → Type}

/-- What is there at once is there in time. -/
def Clock.Prompt [Monad m] (clock : Clock m) : Prop :=
  ∀ {α : Type} (limit : Nat) (x : α), clock.within limit (pure x) = pure (some x)

namespace Store

/-! ## Stores that only fail -/

namespace Asking

variable {argument answer : Type} {a : Asking m argument answer} {e : FetchError} {q : Query}

/-- What a query gets from a store that has one failure for everything it is asked. -/
def refusal (a : Asking m argument answer) (e : FetchError) (q : Query) : FetchError :=
  match q.admittedBy a.backend with
  | .error mismatch => mismatch
  | .ok () =>
      match bindArguments a.backend a.bind q.args with
      | .error unbound => unbound
      | .ok _ => e

theorem refusal_of_bound (hbackend : q.backend = a.backend)
    (hbound : ∃ args, bindArguments a.backend a.bind q.args = .ok args) :
    a.refusal e q = e := by
  obtain ⟨args, hargs⟩ := hbound
  rw [refusal, Query.admittedBy, if_pos hbackend, hargs]

theorem refusal_of_foreign (hbackend : q.backend ≠ a.backend) :
    a.refusal e q = .dialect q.backend a.backend := by
  rw [refusal, Query.admittedBy, if_neg hbackend]

theorem fetch_refused [Monad m] [LawfulMonad m] {clock : Clock m} (hclock : clock.Prompt)
    (limit : Nat) (hask : ∀ text args, a.ask text args = pure (.error e)) (q : Query)
    (columns : List ResultColumn) :
    (a.executor clock limit).fetch q columns = pure (.error (a.refusal e q)) := by
  unfold executor refusal
  dsimp only
  cases q.admittedBy a.backend with
  | error mismatch => rfl
  | ok _ =>
      dsimp only
      cases bindArguments a.backend a.bind q.args with
      | error unbound => rfl
      | ok args => simp [inTime, hask, hclock limit]

/-- A query that was compiled for another backend is not even looked at. -/
theorem fetch_foreign [Monad m] (clock : Clock m) (limit : Nat)
    (hbackend : q.backend ≠ a.backend) (columns : List ResultColumn) :
    (a.executor clock limit).fetch q columns =
      pure (.error (.dialect q.backend a.backend)) := by
  unfold executor
  dsimp only
  rw [Query.admittedBy, if_neg hbackend]

end Asking

/-- Anything but a list can be given to a client that refuses nothing but lists. -/
theorem bindArguments_of_plain {α : Type} (b : Backend) {bind : Scalar → Option α}
    (hbind : ∀ v, (∀ items, v ≠ .list items) → ∃ a, bind v = some a) {args : List Scalar}
    (hplain : ∀ items, .list items ∉ args) : ∃ as, bindArguments b bind args = .ok as := by
  refine exists_ok_mapM_iff.2 fun v hv => ?_
  obtain ⟨a, ha⟩ := hbind v fun items hlist => hplain items (hlist ▸ hv)
  exact ⟨a, by rw [ha]⟩

end Store

/-! ## The two stores -/

inductive EmbeddedStore (m : Type → Type) where
  | sqlite (s : Store.Sqlite.Handle m)
  | duckdb (s : Store.Duckdb.Handle m)

/-- What may be done with a store. -/
inductive Operation where
  | fetch (q : Query) (columns : List Store.ResultColumn)
  | close

/-- What comes of it. -/
inductive Operation.Result where
  | fetched (answer : Except Store.FetchError (List Store.Row))
  | closed (ended : Except Store.OpenError Unit)

namespace EmbeddedStore

open Store

def backend : EmbeddedStore m → Backend
  | .sqlite _ => .sqlite
  | .duckdb _ => .duckdb

def closed : EmbeddedStore m → Bool
  | .sqlite s => s.closed
  | .duckdb s => s.closed

/-- The same store, closed. -/
def shut : EmbeddedStore m → EmbeddedStore m
  | .sqlite s => .sqlite { s with closed := true }
  | .duckdb s => .duckdb { s with closed := true }

/-- The failure of a store for being closed. -/
def gone : EmbeddedStore m → FetchError
  | .sqlite _ => .ofPool .sqlite .closed
  | .duckdb _ => .unavailable .duckdb "connection closed"

theorem exists_gone (s : EmbeddedStore m) :
    ∃ reason, s.gone = .unavailable s.backend reason := by
  cases s <;> exact ⟨_, rfl⟩

theorem closed_shut (s : EmbeddedStore m) : s.shut.closed = true := by
  cases s <;> rfl

theorem backend_shut (s : EmbeddedStore m) : s.shut.backend = s.backend := by
  cases s <;> rfl

theorem shut_of_closed {s : EmbeddedStore m} (h : s.closed = true) : s.shut = s := by
  rcases s with ⟨session, limit, closed⟩ | ⟨session, limit, closed⟩ <;> cases h <;> rfl

variable [Monad m]

def executor (clock : Clock m) : EmbeddedStore m → Executor m
  | .sqlite s => s.executor clock
  | .duckdb s => s.executor clock

def close : EmbeddedStore m → m (Except OpenError Unit × EmbeddedStore m)
  | .sqlite s => do
      let s ← s.close
      return (.ok (), .sqlite s)
  | .duckdb s => do
      let (ended, s) ← s.close
      return (ended, .duckdb s)

/-- What is done to close a store, which may fail; for one that is closed, nothing. -/
def finish : EmbeddedStore m → m (Except OpenError Unit)
  | .sqlite s =>
      if s.closed then pure (.ok ())
      else do
        s.session.close
        return .ok ()
  | .duckdb s =>
      if s.closed then pure (.ok ())
      else do
        let _ ← (s.session.fetch "CHECKPOINT" []).run
        (Duckdb.opening s.session.close).run

/-- What a query gets from the store when it is closed. -/
def complaint (s : EmbeddedStore m) (q : Query) : FetchError :=
  match s with
  | .sqlite t => t.asking.refusal s.gone q
  | .duckdb t => t.asking.refusal s.gone q

/-- What comes of an operation on the store when it is closed. -/
def refusal (s : EmbeddedStore m) : Operation → Operation.Result
  | .fetch q _ => .fetched (.error (s.complaint q))
  | .close => .closed (.ok ())

def step (clock : Clock m) (s : EmbeddedStore m) :
    Operation → m (Operation.Result × EmbeddedStore m)
  | .fetch q columns => do
      let answer ← (s.executor clock).fetch q columns
      return (.fetched answer, s)
  | .close => do
      let (ended, s) ← s.close
      return (.closed ended, s)

/-- One operation after the other, with all that comes of them and the store that is left. -/
def perform (clock : Clock m) (s : EmbeddedStore m) :
    List Operation → m (List Operation.Result × EmbeddedStore m)
  | [] => return ([], s)
  | op :: ops => do
      let (result, s) ← s.step clock op
      let (results, s) ← s.perform clock ops
      return (result :: results, s)

variable {clock : Clock m}

theorem refusal_shut (s : EmbeddedStore m) : s.shut.refusal = s.refusal := by
  funext op
  cases s <;> cases op <;> rfl

theorem complaint_of_plain {s : EmbeddedStore m} {q : Query} (hbackend : q.backend = s.backend)
    (hplain : ∀ items, .list items ∉ q.args) : s.complaint q = s.gone := by
  cases s with
  | sqlite t =>
      refine Asking.refusal_of_bound (a := t.asking) hbackend ?_
      refine bindArguments_of_plain .sqlite (fun v hv => ?_) hplain
      cases v with
      | list items => exact absurd rfl (hv items)
      | _ => exact ⟨_, rfl⟩
  | duckdb t =>
      refine Asking.refusal_of_bound (a := t.asking) hbackend ?_
      refine bindArguments_of_plain .duckdb (fun v hv => ?_) hplain
      cases v with
      | list items => exact absurd rfl (hv items)
      | _ => exact ⟨_, rfl⟩

theorem complaint_of_foreign {s : EmbeddedStore m} {q : Query} (hbackend : q.backend ≠ s.backend) :
    s.complaint q = .dialect q.backend s.backend := by
  cases s with
  | sqlite t => exact Asking.refusal_of_foreign (a := t.asking) hbackend
  | duckdb t => exact Asking.refusal_of_foreign (a := t.asking) hbackend

theorem fetch_foreign (s : EmbeddedStore m) (clock : Clock m) {q : Query}
    (hbackend : q.backend ≠ s.backend) (columns : List ResultColumn) :
    (s.executor clock).fetch q columns = pure (.error (.dialect q.backend s.backend)) := by
  cases s with
  | sqlite s => exact Asking.fetch_foreign clock s.limit (a := s.asking) hbackend columns
  | duckdb s => exact Asking.fetch_foreign clock s.limit (a := s.asking) hbackend columns

section Lawful

variable [LawfulMonad m]

/-- A store is closed afterwards whatever became of closing it. -/
theorem close_eq (s : EmbeddedStore m) :
    s.close = (do let ended ← s.finish; return (ended, s.shut)) := by
  rcases s with ⟨session, limit, _ | _⟩ | ⟨session, limit, _ | _⟩ <;>
    simp [close, finish, shut, Sqlite.Handle.close, Duckdb.Handle.close]

theorem close_of_closed {s : EmbeddedStore m} (h : s.closed = true) :
    s.close = pure (.ok (), s) := by
  have hfinish : s.finish = pure (.ok ()) := by cases s <;> exact if_pos h
  rw [close_eq, hfinish, shut_of_closed h, pure_bind]

/-! ## A closed store -/

theorem fetch_of_closed (hclock : clock.Prompt) {s : EmbeddedStore m} (h : s.closed = true)
    (q : Query) (columns : List ResultColumn) :
    (s.executor clock).fetch q columns = pure (.error (s.complaint q)) := by
  cases s with
  | sqlite t =>
      have hclosed : t.closed = true := h
      have hask : ∀ text args, t.asking.ask text args =
          pure (.error (.ofPool .sqlite .closed)) := by
        intro text args
        simp [Sqlite.Handle.asking, Sqlite.Handle.run, hclosed, Except.mapError]
      exact Asking.fetch_refused hclock t.limit hask q columns
  | duckdb t =>
      have hclosed : t.closed = true := h
      have hask : ∀ text args, t.asking.ask text args =
          pure (.error (.unavailable .duckdb "connection closed")) := by
        intro text args
        simp [Duckdb.Handle.asking, Duckdb.Handle.ask, Duckdb.Handle.withSession, hclosed]
      exact Asking.fetch_refused hclock t.limit hask q columns

theorem step_of_closed (hclock : clock.Prompt) {s : EmbeddedStore m} (h : s.closed = true)
    (op : Operation) : s.step clock op = pure (s.refusal op, s) := by
  cases op with
  | fetch q columns => rw [step, fetch_of_closed hclock h, pure_bind]; rfl
  | close => rw [step, close_of_closed h, pure_bind]; rfl

/-- Whatever is done with a closed store, nothing happens and nothing changes. -/
theorem perform_of_closed (hclock : clock.Prompt) {s : EmbeddedStore m} (h : s.closed = true)
    (ops : List Operation) : s.perform clock ops = pure (ops.map s.refusal, s) := by
  induction ops with
  | nil => rfl
  | cons op ops ih =>
      rw [perform, step_of_closed hclock h, pure_bind]
      dsimp only
      rw [ih, pure_bind]
      rfl

/-- From the first close on the operations alone settle what comes of them. -/
theorem perform_close (hclock : clock.Prompt) (s : EmbeddedStore m)
    (before after : List Operation) :
    s.perform clock (before ++ .close :: after) = (do
      let (results, t) ← s.perform clock before
      let ended ← t.finish
      return (results ++ .closed ended :: after.map s.refusal, t.shut)) := by
  induction before generalizing s with
  | nil =>
      have hafter := perform_of_closed hclock s.closed_shut after
      rw [refusal_shut] at hafter
      simp [perform, step, close_eq, hafter]
  | cons op before ih =>
      -- An operation leaves the store that it finds, or that store closed.
      cases op with
      | fetch q columns => simp [perform, step, ih]
      | close => simp [perform, step, close_eq, ih, refusal_shut]

/-! ## Metrics on a closed store -/

/-- What is planned for a store can be given to it, so a metric gets as far as the store. -/
theorem run_of_closed (hclock : clock.Prompt) {s : EmbeddedStore m} (h : s.closed = true)
    {metric : Metric} {prices : Pricing.PriceTable} {org text : String} {q : Query}
    (hplan : metric.plan prices s.backend org text = .ok q) :
    metric.run (s.executor clock) prices org text = pure (.error (.fetch s.gone)) := by
  have hbackend : (s.executor clock).backend = s.backend := by cases s <;> rfl
  have hplain : ∀ items, .list items ∉ q.args := by
    intro items hlist
    cases Backend.Issues.binds (.planned hplan) _ hlist
  rw [Metric.run, hbackend, hplan]
  dsimp only
  rw [fetch_of_closed hclock h, complaint_of_plain (Metric.backend_of_plan hplan) hplain,
    pure_bind]
  rfl

/-- Once a store is closed it is closed for good, whatever is asked of it and however often it
is closed again. A query that was compiled for it, with arguments that it can be given, finds
it unavailable, and so does a metric; a query for another backend is refused as such, as it
was before. -/
theorem closed_for_good (hclock : clock.Prompt) (s : EmbeddedStore m) :
    (∀ before after, s.perform clock (before ++ .close :: after) = (do
      let (results, t) ← s.perform clock before
      let ended ← t.finish
      return (results ++ .closed ended :: after.map s.refusal, t.shut))) ∧
    (∀ q columns, q.backend = s.backend → (∀ items, .list items ∉ q.args) →
      ∃ reason, s.refusal (.fetch q columns) =
        .fetched (.error (.unavailable s.backend reason))) ∧
    (∀ q columns, q.backend ≠ s.backend →
      s.step clock (.fetch q columns) =
        pure (.fetched (.error (.dialect q.backend s.backend)), s) ∧
      s.refusal (.fetch q columns) = .fetched (.error (.dialect q.backend s.backend))) ∧
    s.shut.closed = true ∧ s.shut.backend = s.backend ∧
    (s.closed = true → s.step clock .close = pure (.closed (.ok ()), s) ∧
      ∀ (metric : Metric) (prices : Pricing.PriceTable) (org text : String) (q : Query),
        metric.plan prices s.backend org text = .ok q →
        ∃ e, metric.run (s.executor clock) prices org text = pure (.error e) ∧
          e.category = .storeUnavailable) := by
  refine ⟨s.perform_close hclock, fun q columns hbackend hplain => ?_,
    fun q columns hbackend => ⟨?_, ?_⟩, s.closed_shut, s.backend_shut, fun h => ⟨?_, ?_⟩⟩
  · obtain ⟨reason, hgone⟩ := s.exists_gone
    rw [refusal, complaint_of_plain hbackend hplain, hgone]
    exact ⟨reason, rfl⟩
  · rw [step, s.fetch_foreign clock hbackend, pure_bind]
  · rw [refusal, complaint_of_foreign hbackend]
  · exact step_of_closed hclock h .close
  · intro metric prices org text q hplan
    refine ⟨_, run_of_closed hclock h hplan, ?_⟩
    cases s <;> rfl

end Lawful

end EmbeddedStore

/-! ## A store that is asked before and after -/

/-- A row store that counts three rows, whatever it is asked. -/
def countsThree : Store.Sqlite.Handle Id where
  session := { run := fun _ => pure ⟨["count"], [[.int 3]]⟩, close := () }
  limit := 30000

/-- A clock where nothing takes time. -/
def timeless : Clock Id := { now := ⟨0, 0⟩, within := fun _ act => some act }

theorem timeless_prompt : timeless.Prompt := fun _ _ => rfl

/-- It counts the requests of "org_1" until it is closed, and then no more. -/
theorem countsThree_closed :
    let q : Query := ⟨.sqlite,
      "SELECT count(*) AS count FROM request WHERE (request.organization_id = ?1)",
      [.text "org_1"]⟩
    let ask : Operation := .fetch q [Metric.totalRequests.column]
    ∃ reason,
      ((EmbeddedStore.sqlite countsThree).perform timeless [ask, .close, ask, .close, ask]).1 =
        [.fetched (.ok [[("count", .number (.int 3))]]), .closed (.ok ()),
          .fetched (.error (.unavailable .sqlite reason)), .closed (.ok ()),
          .fetched (.error (.unavailable .sqlite reason))] := by
  intro q ask
  obtain ⟨hperform, hrefusal, -⟩ :=
    EmbeddedStore.closed_for_good timeless_prompt (.sqlite countsThree)
  obtain ⟨reason, hreason⟩ := hrefusal q [Metric.totalRequests.column] rfl (by simp [q])
  have hask : (EmbeddedStore.sqlite countsThree).refusal ask =
      .fetched (.error (.unavailable .sqlite reason)) := hreason
  have hrun := hperform [ask] [ask, .close, ask]
  simp only [List.map_cons, List.map_nil, hask] at hrun
  exact ⟨reason, congrArg Prod.fst hrun⟩

end RequestLog
