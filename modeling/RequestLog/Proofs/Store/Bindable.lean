import RequestLog.Proofs.Metric.Clause

/-!
# What a query binds can be bound

A leaf may hold an operand of any form, and a request may ask for a truth value, a
number with a fraction or a list. No query binds one: every column is an integer, a
text or an instant, an operator takes what its column holds, a list is bound item by
item, and what is asked to be absent is not bound at all. An instant is bound as such
where the backend has arguments for it. Prices bind the names of models, which are
texts.

So whatever is compiled can be given to a store, and the refusal of a list by the four
clients is there for nothing that this program asks (`Issues.bindable`).
-/

namespace RequestLog

open Pricing

/-! ## Arguments that a backend has -/

/-- The arguments that a backend is given. -/
inductive Backend.Binds (b : Backend) : Scalar → Prop
  | int (i : Int) : b.Binds (.int i)
  | text (s : String) : b.Binds (.text s)
  | timestamp (t : Instant) : b = .postgres → b.Binds (.timestamp t)

variable {b : Backend}

theorem Kind.Takes.binds {kind : Kind} {v w : Scalar} (h : kind.Takes v w)
    (hbool : kind ≠ .bool) (hfloat : kind ≠ .float) : b.Binds (b.encode w) := by
  cases h with
  | bool x => exact absurd rfl hbool
  | float x | widened i => exact absurd rfl hfloat
  | int i => cases b <;> exact .int i
  | text s => cases b <;> exact .text s
  | timestamp t =>
      cases b with
      | postgres => exact .timestamp t rfl
      | sqlite | duckdb | clickhouse => exact .int t.micros

/-- A test binds its operands, and it has as many as its operator takes. -/
theorem Operator.Asks.binds {op : Operator} {kind : Kind} {v : Scalar} {t : Test}
    (h : op.Asks kind v t) (hbool : kind ≠ .bool) (hfloat : kind ≠ .float) :
    ∀ w ∈ t.operands, b.Binds (b.encode w) := by
  cases h with
  | isNull | isNotNull => exact nofun
  | @«in» items vs hall =>
      change ∀ w ∈ vs, b.Binds (b.encode w)
      induction hall with
      | nil => exact nofun
      | cons hx _ ih => exact List.forall_mem_cons.2 ⟨hx.binds hbool hfloat, ih⟩
  | contains hw | like hw | compare _ hw =>
      intro w hmem
      obtain rfl := List.mem_singleton.1 hmem
      exact hw.binds hbool hfloat

theorem Filter.Checks.binds {source : Source} {f : Filter} {c : Condition}
    (h : f.Checks b.family source c) : ∀ w ∈ c.operands, b.Binds (b.encode w) := by
  induction h with
  | all => exact nofun
  | @leaf l field t _ hresolve _ hasks =>
      have hkind := Registry.kind_of_resolve hresolve
      have hbool : field.kind ≠ .bool := by rw [hkind]; cases l.column <;> decide
      have hfloat : field.kind ≠ .float := by rw [hkind]; cases l.column <;> decide
      exact hasks.binds hbool hfloat
  | branch op _ _ ihl ihr =>
      intro w hw
      rcases List.mem_append.1 hw with hw | hw
      · exact ihl w hw
      · exact ihr w hw

theorem ScopedFilter.binds_of_check {s : ScopedFilter} {c : Condition}
    (h : s.check b.family = .ok c) : ∀ v ∈ c.operands.map b.encode, b.Binds v := by
  obtain ⟨source, -, hchecks⟩ := checks_of_check h
  intro v hv
  obtain ⟨w, hw, rfl⟩ := List.mem_map.1 hv
  exact hchecks.binds w hw

theorem Pricing.PriceTable.binds_operands (t : PriceTable) : ∀ v ∈ t.operands, b.Binds v := by
  intro v hv
  obtain ⟨r, -, rfl⟩ := List.mem_map.1 hv
  exact .text _

/-! ## Queries -/

theorem Backend.compile_binds {s : ScopedFilter} {q : Query} (h : b.compile s = .ok q) :
    ∀ v ∈ q.args, b.Binds v := by
  obtain ⟨c, hc, rfl⟩ := compile_ok h
  exact ScopedFilter.binds_of_check hc

/-- A selection that binds nothing else leaves a query in which everything is bound. -/
theorem Backend.select_binds {s : ScopedFilter} {items : Selection} {q : Query}
    (h : b.select s items = .ok q)
    (hitems : ∀ text p, items ⟨b, #[]⟩ = .ok (text, p) → ∀ v ∈ p.values.toList, b.Binds v) :
    ∀ v ∈ q.args, b.Binds v := by
  obtain ⟨source, text, p, c, -, hselected, -, hc, rfl⟩ := select_ok h
  intro v hv
  rcases List.mem_append.1 hv with hv | hv
  · exact hitems text p hselected v hv
  · exact ScopedFilter.binds_of_check hc v hv

theorem Metric.query_binds {metric : Metric} {prices : PriceTable} {tenant : Tenant}
    {body : RequestBody} {q : Query} (h : metric.query prices b tenant body = .ok q) :
    ∀ v ∈ q.args, b.Binds v := by
  refine Backend.select_binds h fun text p hp v hv => ?_
  obtain ⟨items, hitems⟩ := metric.selection_ok prices b
  cases hitems.symm.trans hp
  cases metric with
  | totalCost => exact PriceTable.binds_operands prices v hv
  | totalRequests | activeUsers | averageLatency => cases hv

/-- The queries that are made for a backend: compiled filters, alone or for the name of an
organization and the text of a request, and those of the metrics. -/
inductive Backend.Issues (b : Backend) : Query → Prop
  | filter {s : ScopedFilter} {q : Query} : b.compile s = .ok q → b.Issues q
  | command {table : Table} {org text : String} {q : Query} :
      Program.compile b table org text = .ok q → b.Issues q
  | metric {metric : Metric} {prices : PriceTable} {tenant : Tenant} {body : RequestBody}
      {q : Query} : metric.query prices b tenant body = .ok q → b.Issues q
  | planned {metric : Metric} {prices : PriceTable} {org text : String} {q : Query} :
      metric.plan prices b org text = .ok q → b.Issues q

theorem Backend.Issues.binds {q : Query} (h : b.Issues q) : ∀ v ∈ q.args, b.Binds v := by
  cases h with
  | filter h => exact compile_binds h
  | command h =>
      obtain ⟨tenant, -, h⟩ := ok_of_bind h
      obtain ⟨body, -, h⟩ := ok_of_bind h
      exact compile_binds h
  | metric h => exact Metric.query_binds h
  | planned h =>
      obtain ⟨tenant, -, h⟩ := ok_of_bind h
      obtain ⟨body, -, h⟩ := ok_of_bind h
      exact Metric.query_binds h

/-! ## Clients -/

/-- A client that has a form for every argument of its backend refuses none. -/
theorem Store.bindArguments_ok {α : Type} {bind : Scalar → Option α} {args : List Scalar}
    (hbind : ∀ v, b.Binds v → ∃ a, bind v = some a) (h : ∀ v ∈ args, b.Binds v) :
    ∃ as, bindArguments b bind args = .ok as := by
  refine exists_ok_mapM_iff.2 fun v hv => ?_
  obtain ⟨a, ha⟩ := hbind v (h v hv)
  exact ⟨a, by rw [ha]⟩

/-- Everything that a query binds is an integer, a text or, on the backend that has
arguments for them, an instant, and every client has a form for it. -/
theorem Backend.Issues.bindable {q : Query} (h : b.Issues q) :
    (∀ v ∈ q.args, b.Binds v) ∧
    (∃ args, Store.bindArguments b Store.Sqlite.bind q.args = .ok args) ∧
    (∃ args, Store.bindArguments b Store.Postgres.bind q.args = .ok args) ∧
    (∃ args, Store.bindArguments b Store.Duckdb.bind q.args = .ok args) ∧
    (∃ args, Store.bindArguments b Store.Clickhouse.bind q.args = .ok args) := by
  refine ⟨h.binds, ?_, ?_, ?_, ?_⟩
  all_goals
    refine Store.bindArguments_ok (fun v hv => ?_) h.binds
    cases hv <;> exact ⟨_, rfl⟩

/-- A list among the operands is bound item by item. -/
theorem sampleScope_bindable :
    ∃ q, Backend.postgres.compile sampleScope = .ok q ∧
      q.args = [.text "org_1", .text "gpt", .int 100, .int 200,
        .timestamp ⟨1700000000, 5⟩] ∧
      ∃ args, Store.bindArguments .postgres Store.Postgres.bind q.args = .ok args :=
  ⟨_, rfl, rfl, (Backend.Issues.bindable (.filter (s := sampleScope) rfl)).2.2.1⟩

end RequestLog
