import RequestLog.Proofs.Metric.Isolation
import RequestLog.Proofs.Metric.Outcome
import RequestLog.Proofs.Relational.Count

/-!
# What the number of requests counts

The total is a count over requests with their responses. It is taken over the records of
the join, so a request counts as often as it has responses for which the caller's filter
holds (`totalRequests_count`). That is the number of requests only where none has two such
responses; the schema admits more, and then a request is counted more than once
(`totalRequests_twice`).
-/

namespace RequestLog

open Relational Schema

/-! ## The condition of a request -/

/-- A checked request is a conjunction of the tenant's own leaf, the two bounds of the
range and what the caller asks for. -/
theorem RequestBody.check_filterOver {family : Family} {table : Table} {tenant : Tenant}
    {body : RequestBody} {c : Condition}
    (h : ScopedFilter.check ⟨table, tenant, body.filterOver table⟩ family = .ok c) :
    ∃ source own created user,
      Registry.source? family table = some source ∧
      Registry.resolve? family table .organizationId = some own ∧
      Registry.resolve? family table .createdAt = some created ∧
      Filter.check family source body.filter = .ok user ∧
      c = .junction .and (.test own (.compare .eq (.text tenant.name)))
        (.junction .and
          (.junction .and (.test created (.compare .ge (.timestamp body.range.start)))
            (.test created (.compare .le (.timestamp body.range.stop)))) user) := by
  obtain ⟨source, own, asked, hsource, hown, hasked, rfl⟩ := ScopedFilter.check_ok h
  obtain ⟨range, hrange, hasked⟩ := ok_of_bind hasked
  obtain ⟨user, huser, hasked⟩ := ok_of_bind hasked
  cases hasked
  obtain ⟨created, hcreated, rfl⟩ := TimeRange.filter_checks (Filter.checks_of_check hrange)
  exact ⟨source, own, created, user, hsource, hown, hcreated, huser, rfl⟩

/-! ## The requests of a tenant in a range -/

/-- Whether a request is a tenant's own and lies in a range, compared as a store does. -/
def Relational.Table.asked (q : Table) (tenant : String) (range : TimeRange)
    (row : List Value) : Bool :=
  q.names tenant row &&
    (compareTruth .ge (q.value row "created_at") (.int range.start.micros) == some true &&
      compareTruth .le (q.value row "created_at") (.int range.stop.micros) == some true)

/-- The records of a request for which a condition is true. -/
def Relational.Server.matching {m : Type → Type} (S : Server m) (user : Condition)
    (q p : Relational.Table) (row : List Value) : List Record :=
  (answered q p row).filter (S.finds user)

variable {m : Type → Type} {S : Server m} {db : Database} {q p : Relational.Table}
  {row : List Value} {tenant : Tenant} {body : RequestBody} {c : Condition}

theorem expr_instant {b : Backend} (h : b.family = .row) {field : Field}
    (hkind : field.kind = .timestamp) (op : Sql.Comparison) (t : Instant) (n : Nat) :
    (Test.compare op (.timestamp t)).expr b field n =
      .compare op (.column field.column) (.argument (n + 1)) := by
  rw [Test.expr, Backend.bound, Backend.beside, if_pos hkind]
  cases b with
  | sqlite | postgres => rfl
  | duckdb | clickhouse => cases h

section

variable [Monad m] {args : List Scalar} (rest : Record)

theorem valueIn_request (hq : db.Has requestTable q) (hrow : row ∈ q.rows) {column : String}
    (hcolumn : (requestTable.column? column).isSome) :
    valueIn (q.record row ++ rest) ⟨"request", column⟩ = q.value row column := by
  have hlookup : (q.record row).lookup ⟨"request", column⟩ = some (q.value row column) :=
    hq.lookup_record hrow hcolumn
  rw [valueIn_append_left (Option.isSome_iff_exists.2 ⟨_, hlookup⟩)]
  exact valueIn_of_lookup hlookup

theorem holds_tenant (hS : S.Counts) (hq : db.Has requestTable q) (hrow : row ∈ q.rows)
    {own : Field} (hown : Registry.rowField .requestResponseLog .organizationId = some own)
    {name : String} (hargs : args[0]? = some (.text name)) :
    S.holds ((Test.compare .eq (.text name)).expr S.backend own 0) args
      (q.record row ++ rest) = q.names name row := by
  cases hown
  have hequals := hS.ordinary.equals hargs ⟨"request", "organization_id"⟩ (q.record row ++ rest)
  rw [valueIn_request rest hq hrow rfl, ← Table.names_iff, ← Bool.eq_iff_iff] at hequals
  exact hequals

theorem holds_bound (hS : S.Counts) (hfamily : S.backend.family = .row)
    (hq : db.Has requestTable q) (hrow : row ∈ q.rows) {created : Field}
    (hcreated : Registry.rowField .requestResponseLog .createdAt = some created)
    (op : Sql.Comparison) {t : Instant} {n : Nat}
    (hargs : args[n]? = some (S.backend.encodeInstant t)) :
    S.holds ((Test.compare op (.timestamp t)).expr S.backend created n) args
      (q.record row ++ rest) =
        (compareTruth op (q.value row "created_at") (.int t.micros) == some true) := by
  have hinstants := hS.instants hargs hcreated op (q.record row ++ rest)
  cases hcreated
  rw [expr_instant hfamily rfl, hinstants]
  exact congrArg (compareTruth op · _ == some true) (valueIn_request rest hq hrow rfl)

/-- A record of a request is kept if the request is asked for and the caller's filter
holds on the record. -/
theorem holds_request (hS : S.Counts) (hfamily : S.backend.family = .row)
    (hq : db.Has requestTable q)
    (h : ScopedFilter.check ⟨.requestResponseLog, tenant, body.filterOver .requestResponseLog⟩
      .row = .ok c) :
    ∃ user, Filter.check .row (Registry.rowSource .requestResponseLog) body.filter = .ok user ∧
      ∀ row ∈ q.rows, ∀ record ∈ answered q p row,
        S.holds (c.expr S.backend 0) (c.operands.map S.backend.encode) record =
          (q.asked tenant.name body.range row && S.finds user record) := by
  obtain ⟨source, own, created, user, hsource, hown, hcreated, huser, rfl⟩ :=
    RequestBody.check_filterOver h
  cases hsource
  refine ⟨user, huser, fun row hrow record hrecord => ?_⟩
  obtain ⟨rest, rfl⟩ := append_of_mem_answered hrecord
  have hplaces := hS.places user [.text tenant.name,
    S.backend.encodeInstant body.range.start, S.backend.encodeInstant body.range.stop] []
    (q.record row ++ rest)
  rw [List.append_nil] at hplaces
  have hargs : (Condition.junction .and (.test own (.compare .eq (.text tenant.name)))
      (.junction .and (.junction .and
        (.test created (.compare .ge (.timestamp body.range.start)))
        (.test created (.compare .le (.timestamp body.range.stop)))) user)).operands.map
          S.backend.encode = [.text tenant.name, S.backend.encodeInstant body.range.start,
            S.backend.encodeInstant body.range.stop] ++ user.operands.map S.backend.encode :=
    rfl
  rw [hargs]
  have hplace : ∀ i : Nat, i < 3 → (_ ++ user.operands.map S.backend.encode)[i]? =
      [Scalar.text tenant.name, S.backend.encodeInstant body.range.start,
        S.backend.encodeInstant body.range.stop][i]? := fun i hi => List.getElem?_append_left hi
  have htenant := holds_tenant rest hS hq hrow hown (hplace 0 (by decide))
  have hstart := holds_bound rest hS hfamily hq hrow hcreated .ge (hplace 1 (by decide))
  have hstop := holds_bound rest hS hfamily hq hrow hcreated .le (hplace 2 (by decide))
  change S.holds (.junction .and _ (.junction .and (.junction .and _ _) _)) _ _ = _
  rw [hS.ordinary.and, hS.ordinary.and, hS.ordinary.and]
  exact (congrArg₂ _ htenant (congrArg₂ _ (congrArg₂ _ hstart hstop) hplaces)).trans
    (Bool.and_assoc ..).symm

end

/-- What is kept of all records, request by request. -/
theorem filter_records {kept : Record → Bool} {user : Condition} {range : TimeRange}
    {name : String}
    (hkept : ∀ row ∈ q.rows, ∀ record ∈ answered q p row,
      kept record = (q.asked name range row && S.finds user record)) :
    (q.rows.flatMap (answered q p)).filter kept =
      (q.rows.filter (q.asked name range)).flatMap (S.matching user q p) := by
  have hother : ∀ row ∈ q.rows, q.asked name range row = false →
      ∀ record ∈ answered q p row, kept record = false := by
    intro row hrow hother record hrecord
    rw [hkept row hrow record hrecord, hother, Bool.false_and]
  rw [filter_flatMap_filter (fun _ _ _ => rfl) hother, List.filter_flatMap]
  refine List.flatMap_congr fun row hrow => List.filter_congr fun record hrecord => ?_
  obtain ⟨hrow, hasked⟩ := List.mem_filter.1 hrow
  rw [hkept row hrow record hrecord, hasked, Bool.true_and]

namespace Metric

/-- The number of requests is read as a count over all records. -/
theorem totalRequests_reads {prices : Pricing.PriceTable} {b : Backend} {q : Query}
    (h : totalRequests.query prices b tenant body = .ok q) :
    ∃ source c, Registry.source? b.family .requestResponseLog = some source ∧
      ScopedFilter.check ⟨.requestResponseLog, tenant, body.filterOver .requestResponseLog⟩
        b.family = .ok c ∧
      Sql.Select.ofText? q.text =
        some ⟨[(.countAll, "count")], source.relation, c.expr b 0⟩ ∧
      q.args = c.operands.map b.encode :=
  select_reads_item h rfl Sql.readsAs_countAll (by rw [Sql.Expr.arguments]; rfl)

theorem conclude_count {n : Int} (h : Decimal.fitsSigned 64 n = true) :
    totalRequests.conclude (.ok [[("count", .number (.int n))]]) = .ok (.count n) := by
  have hrow : totalRequests.readRow [("count", .number (.int n))] = .ok (.count n) :=
    readRow_ok_iff.2 (.count rfl rfl h)
  rw [conclude, List.mapM_cons, hrow]
  rfl

/-- What a server that counts is asked for, and what becomes of its count. -/
theorem totalRequests_run [Monad m] [LawfulMonad m] (hS : S.Counts)
    (hfamily : S.backend.family = .row) (hdb : db.Admitted rowTables)
    {prices : Pricing.PriceTable} {org text : String} {query : Query}
    (h : totalRequests.plan prices S.backend org text = .ok query) :
    ∃ body user q p, RequestBody.parse text = .ok body ∧
      Filter.check .row (Registry.rowSource .requestResponseLog) body.filter = .ok user ∧
      db.table? "request" = some q ∧ db.table? "response" = some p ∧
      totalRequests.run (S.executor db) prices org text =
        pure (totalRequests.conclude (.ok [[("count", .number (.int
          ((q.rows.filter (q.asked org body.range)).flatMap
            (S.matching user q p)).length))]])) := by
  have hrun := run_of_plan (S.executor db) h
  obtain ⟨tenant, htenant, h⟩ := ok_of_bind h
  obtain ⟨body, hbody, h⟩ := ok_of_bind h
  obtain ⟨source, c, hsource, hc, hread, hargs⟩ := totalRequests_reads h
  rw [hfamily] at hsource hc
  cases hsource
  obtain ⟨q, hq⟩ := hdb.has (d := requestTable) rfl
  obtain ⟨p, hp⟩ := hdb.has (d := responseTable) rfl
  obtain ⟨user, huser, hholds⟩ := holds_request (p := p) hS hfamily hq hc
  rw [Tenant.ofName_ok htenant] at hholds
  refine ⟨body, user, q, p, hbody, huser, hq.found, hp.found, ?_⟩
  rw [hrun, Server.fetch_eq hread (records_requests hq hp), hargs, filter_records hholds,
    hS.counts, pure_bind, Multiset.coe_card]

/-- The total is the number of records that the caller's filter holds on, of all requests
that are the tenant's own and lie in the range. It is the number of these requests with
such a record exactly if no request has two of them. -/
theorem totalRequests_count [Monad m] [LawfulMonad m] (hS : S.Counts)
    (hfamily : S.backend.family = .row) (hdb : db.Admitted rowTables)
    {prices : Pricing.PriceTable} {org text : String} {query : Query}
    (h : totalRequests.plan prices S.backend org text = .ok query) :
    ∃ body user q p, RequestBody.parse text = .ok body ∧
      Filter.check .row (Registry.rowSource .requestResponseLog) body.filter = .ok user ∧
      db.table? "request" = some q ∧ db.table? "response" = some p ∧
      ∃ (asked : List (List Value)) (count : Nat),
        asked = q.rows.filter (q.asked org body.range) ∧
        count = (asked.map fun row => (S.matching user q p row).length).sum ∧
        (Decimal.fitsSigned 64 count = true →
          totalRequests.run (S.executor db) prices org text = pure (.ok (.count count))) ∧
        (count = asked.countP (fun row => 0 < (S.matching user q p row).length) ↔
          ∀ row ∈ asked, (S.matching user q p row).length ≤ 1) := by
  obtain ⟨body, user, q, p, hbody, huser, hq, hp, hrun⟩ := totalRequests_run hS hfamily hdb h
  refine ⟨body, user, q, p, hbody, huser, hq, hp, _, _, rfl, rfl, fun hfits => ?_,
    sum_eq_countP_iff _ _⟩
  rw [hrun, List.length_flatMap]
  exact congrArg pure (conclude_count hfits)

end Metric

/-! ## One request and its responses -/

/-- What "org_1" asks for in the first second is put to a server without any condition of
its own. -/
theorem plan_firstSecond (prices : Pricing.PriceTable) :
    ∃ q, Metric.totalRequests.plan prices .sqlite "org_1" firstSecond = .ok q := by
  rw [Metric.plan, parse_firstSecond]
  exact ⟨_, rfl⟩

/-- Two requests of "org_1", of which one has a response, and one of "org_2". -/
def singleRows : List (String × List (String × Value)) :=
  [requestOf "org_1" "req_1", responseTo "req_1" 120, requestOf "org_1" "req_2",
    requestOf "org_2" "req_3"]

theorem totalRequests_single :
    (rowStore singleRows).Admitted rowTables ∧
      Metric.totalRequests.run (countingServer.executor (rowStore singleRows))
        Pricing.overlapping "org_1" firstSecond = .ok (.count 2) := by
  refine ⟨rowStore_admitted _, ?_⟩
  obtain ⟨query, hquery⟩ := plan_firstSecond Pricing.overlapping
  obtain ⟨body, user, q, p, hbody, huser, hq, hp, asked, count, hasked, hcount, hrun, -⟩ :=
    Metric.totalRequests_count (S := countingServer) countingServer_counts rfl
      (rowStore_admitted singleRows) hquery
  cases hbody.symm.trans parse_firstSecond
  cases huser
  cases hq
  cases hp
  have htwo : count = 2 := hcount.trans (by rw [hasked]; rfl)
  rw [htwo] at hrun
  exact hrun rfl

/-- A request of "org_1" with two responses. -/
def repeatedRows : List (String × List (String × Value)) :=
  [requestOf "org_1" "req_1",
    ("response", [("id", .text "resp_1"), ("request_id", .text "req_1"), ("created_at", .int 5)]),
    ("response", [("id", .text "resp_2"), ("request_id", .text "req_1"), ("created_at", .int 5)])]

/-- A request with two responses is counted twice. -/
theorem totalRequests_twice :
    countingServer.Counts ∧ (rowStore repeatedRows).Admitted rowTables ∧
      Metric.totalRequests.run (countingServer.executor (rowStore repeatedRows))
        Pricing.overlapping "org_1" firstSecond = .ok (.count 2) ∧
      ∃ q p, (rowStore repeatedRows).table? "request" = some q ∧
        (rowStore repeatedRows).table? "response" = some p ∧
        (q.rows.filter (q.asked "org_1" firstSecondBody.range)).countP
          (fun row => 0 < (countingServer.matching .always q p row).length) = 1 := by
  refine ⟨countingServer_counts, rowStore_admitted _, ?_, _, _, rfl, rfl, rfl⟩
  obtain ⟨query, hquery⟩ := plan_firstSecond Pricing.overlapping
  obtain ⟨body, user, q, p, hbody, huser, hq, hp, hrun⟩ :=
    Metric.totalRequests_run (S := countingServer) countingServer_counts rfl
      (rowStore_admitted repeatedRows) hquery
  cases hbody.symm.trans parse_firstSecond
  have htwo : ((q.rows.filter (q.asked "org_1" firstSecondBody.range)).flatMap
      (countingServer.matching user q p)).length = 2 := by
    cases huser
    cases hq
    cases hp
    rfl
  rw [htwo] at hrun
  exact hrun.trans (Metric.conclude_count rfl)

end RequestLog
