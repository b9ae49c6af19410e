import Mathlib.Algebra.BigOperators.Group.Multiset.Basic
import RequestLog.Proofs.Json.Token
import RequestLog.Proofs.Metric.Query
import RequestLog.Proofs.Relational.Ownership
import RequestLog.Proofs.Relational.Server

/-!
# What a metric of a row store depends on

A metric asks for the records in which its table names the organization. For requests
and their responses these are the organization's own, and so the metrics over them are
the same in any two states with the same rows of the organization.

The average latency is taken over properties. A property may refer to another
organization's request, and then it is the other's response whose latency counts
(`averageLatency_reads_others`). So it depends on the rows that the organization's
properties reach, and on the organization's own only where these are the same
(`averageLatency_own_rows`).
-/

namespace RequestLog

open Relational

variable {m : Type → Type} {S : Server m} {db db' : Database}

/-- What a scoped filter keeps names the tenant in the column of the filter's table. -/
theorem ScopedFilter.holds_own {s : ScopedFilter} {b : Backend} {c : Condition}
    (hS : Server.Ordinary S.holds) (h : s.check b.family = .ok c) (first : List Scalar) :
    ∃ field, Registry.resolve? b.family s.source .organizationId = some field ∧
      ∀ record,
        S.holds (c.expr b first.length) (first ++ c.operands.map b.encode) record = true →
          valueIn record field.column = .text s.tenant.name := by
  obtain ⟨field, user, vs, hfield, hexpr, hoperands⟩ := expr_own h first.length
  refine ⟨field, hfield, fun record hrecord => ?_⟩
  have htenant : (first ++ c.operands.map b.encode)[first.length]? =
      some (.text s.tenant.name) := by
    rw [hoperands, List.getElem?_append_right le_rfl, Nat.sub_self]
    rfl
  rw [hexpr, hS.and, Bool.and_eq_true] at hrecord
  exact (hS.equals htenant field.column record).1 hrecord.1

theorem Tenant.ofName_ok {name : String} {t : Tenant} (h : ofName name = .ok t) :
    t.name = name := by
  rw [ofName] at h
  split at h
  · cases h; rfl
  · cases h

namespace Metric

theorem run_of_plan [Monad m] {metric : Metric} (executor : Executor m)
    {prices : Pricing.PriceTable} {org text : String} {q : Query}
    (h : metric.plan prices executor.backend org text = .ok q) :
    metric.run executor prices org text =
      (do return metric.conclude (← executor.fetch q [metric.column])) := by
  rw [run, h]

section

variable [Monad m] {metric : Metric} {org : String}

/-- A metric is the same in two states if, whatever is kept of the records that name the
organization, the same of them are kept in both. -/
theorem run_eq_of_kept (hS : Server.Ordinary S.holds) (hfamily : S.backend.family = .row)
    {field : Field} (hfield : Registry.rowField metric.table .organizationId = some field)
    (hkept : ∀ kept : Record → Bool,
      (∀ record, kept record = true → valueIn record field.column = .text org) →
      ∃ rs rs' absent,
        db.records (Registry.rowSource metric.table).relation = .ok (rs, absent) ∧
        db'.records (Registry.rowSource metric.table).relation = .ok (rs', absent) ∧
        (rs.filter kept).Perm (rs'.filter kept))
    (prices : Pricing.PriceTable) (text : String) :
    metric.run (S.executor db) prices org text =
      metric.run (S.executor db') prices org text := by
  cases hplan : metric.plan prices S.backend org text with
  | error e =>
      have hfails (db : Database) :
          metric.run (S.executor db) prices org text = pure (.error (.filter e)) := by
        have hplan : metric.plan prices (S.executor db).backend org text = .error e := hplan
        rw [run, hplan]
      rw [hfails, hfails]
  | ok q =>
      rw [run_of_plan (S.executor db) hplan, run_of_plan (S.executor db') hplan]
      obtain ⟨tenant, htenant, hplan⟩ := ok_of_bind hplan
      obtain ⟨body, -, hq⟩ := ok_of_bind hplan
      obtain ⟨source, e, p, item, c, hsource, -, hc, hread, hargs⟩ := query_reads hq
      obtain ⟨own, hown, hholds⟩ := ScopedFilter.holds_own hS hc p.values.toList
      rw [hfamily] at hsource hown
      cases hsource
      cases hown.symm.trans hfield
      rw [Tenant.ofName_ok htenant] at hholds
      obtain ⟨rs, rs', absent, hrs, hrs', hperm⟩ := hkept _ hholds
      rw [← hargs] at hperm
      rw [Server.fetch_eq hread hrs, Server.fetch_eq hread hrs']
      exact congrArg (S.answer _ _ _ · >>= _) (Quot.sound hperm)

/-- Where an organization's properties refer to its own requests, its average latency
depends on nothing but its own rows. -/
theorem averageLatency_own_rows (hS : Server.Ordinary S.holds)
    (hfamily : S.backend.family = .row) (prices : Pricing.PriceTable) (text : String)
    (hdb : db.Admitted rowTables) (hdb' : db'.Admitted rowTables)
    (hsame : db.SamePart org db') (hrefs : db.RefersToOwn org) :
    averageLatency.run (S.executor db) prices org text =
      averageLatency.run (S.executor db') prices org text := by
  refine run_eq_of_kept hS hfamily rfl (fun kept hkept => ?_) prices text
  exact (hsame.sameReach hdb hdb' hrefs).records_kept (Database.properties_part hdb hkept)
    (Database.properties_part hdb' hkept)

end

/-- A metric of a row store is the same in any two states in which the organization has
the same rows; for the average latency those that it reaches have to be the same. -/
theorem run_own_rows [Monad m] (hS : Server.Ordinary S.holds)
    (hfamily : S.backend.family = .row) (metric : Metric) (prices : Pricing.PriceTable)
    (org text : String) (hdb : db.Admitted rowTables) (hdb' : db'.Admitted rowTables)
    (hsame : db.SamePart org db')
    (hreach : metric = .averageLatency → db.SameReach org db') :
    metric.run (S.executor db) prices org text =
      metric.run (S.executor db') prices org text := by
  cases metric with
  | totalRequests | activeUsers | totalCost =>
      refine run_eq_of_kept hS hfamily rfl (fun kept hkept => ?_) prices text
      exact hsame.records_kept (Database.requests_part hdb hkept)
        (Database.requests_part hdb' hkept)
  | averageLatency =>
      refine run_eq_of_kept hS hfamily rfl (fun kept hkept => ?_) prices text
      exact (hreach rfl).records_kept (Database.properties_part hdb hkept)
        (Database.properties_part hdb' hkept)

end Metric

/-! ## Two organizations in one store -/

/-- A row store after some insertions, or an empty one if it refuses one of them. -/
def rowStore (rows : List (String × List (String × Value))) : Database :=
  let empty : Database := { tables := rowTables.map (⟨·, []⟩) }
  (empty.insertAll rows).toOption.getD empty

theorem rowStore_admitted (rows : List (String × List (String × Value))) :
    (rowStore rows).Admitted rowTables := by
  rw [rowStore]
  generalize hempty : Database.mk (rowTables.map (⟨·, []⟩)) [] = empty
  have hadmitted : empty.Admitted rowTables := by
    rw [← hempty]
    refine .of_empty ?_ fun t ht => ?_
    · rw [List.map_map]
      exact List.map_id _
    · obtain ⟨d, -, rfl⟩ := List.mem_map.1 ht
      rfl
  change ((empty.insertAll rows).toOption.getD empty).Admitted rowTables
  cases hinsert : empty.insertAll rows with
  | error f => exact hadmitted
  | ok db => exact hadmitted.insertAll rowTables_nodup hinsert

def requestOf (org id : String) : String × List (String × Value) :=
  ("request", [("id", .text id), ("organization_id", .text org), ("created_at", .int 5)])

def responseTo (request : String) (latency : Int) : String × List (String × Value) :=
  ("response", [("id", .text request), ("request_id", .text request), ("created_at", .int 5),
    ("latency", .int latency)])

def propertyOf (org request : String) : String × List (String × Value) :=
  ("properties", [("request_id", .text request), ("organization_id", .text org),
    ("created_at", .int 5), ("key", .text "tier"), ("value", .text "free")])

def latencyOf (record : Record) : Int :=
  match valueIn record ⟨"response", "latency"⟩ with
  | .int i => i
  | _ => 0

def meanLatency (kept : Multiset Record) : Float :=
  if kept.card = 0 then 0
  else Decimal.ofInt (kept.map latencyOf).sum / Decimal.ofInt kept.card

/-- A server that is asked for nothing but average latencies. -/
def latencyServer : Server Id where
  backend := .sqlite
  holds := embedded
  answer items _ _ kept := .ok [items.map fun item => (item.2, Json.ofFloat (meanLatency kept))]
  refuse _ _ := .ok []

/-- A request for everything in the first second. -/
def firstSecond : String := "\x7b\"timeFilter\":\x7b\"start\":0,\"end\":1000\x7d\x7d"

def firstSecondBody : RequestBody := ⟨.all, ⟨0, 0⟩, ⟨1, 0⟩, by decide⟩

theorem parse_firstSecond : RequestBody.parse firstSecond = .ok firstSecondBody := by
  have htokens : Json.tokens firstSecond.toList =
      [.punct .openObject, .text (.ok "timeFilter"), .punct .colon, .punct .openObject,
        .text (.ok "start"), .punct .colon, .number (.ok (.int 0)), .punct .comma,
        .text (.ok "end"), .punct .colon, .number (.ok (.int 1000)), .punct .closeObject,
        .punct .closeObject] := by
    iterate 13 refine Json.tokensAfter_cons rfl rfl ?_
    exact Json.tokensAfter_nil
  have hwire : RequestBody.decodeWire firstSecond = .ok ⟨none, some (.millis 0, .millis 1000)⟩ := by
    rw [RequestBody.decodeWire, Json.decodeWhole, htokens]
    rfl
  rw [RequestBody.parse, hwire]
  rfl

theorem notBlank_org1 : Text.blank "org_1" = false := rfl

/-- What "org_1" asks for in the first second. -/
def ownScope : ScopedFilter where
  source := .propertyWithResponse
  tenant := ⟨"org_1", notBlank_org1⟩
  filter := firstSecondBody.filterOver .propertyWithResponse

/-- The records that are kept for "org_1" of those in a store. -/
def keptOfOrg1 (c : Condition) (records : List Record) : List Record :=
  records.filter (embedded (c.expr .sqlite 0) (c.operands.map Backend.sqlite.encode))

/-- The average latency of "org_1" in the first second, as that server gives it. -/
theorem run_latency {prices : Pricing.PriceTable} {records : List Record} {absent : Record}
    {c : Condition} (hc : ownScope.check .row = .ok c)
    (hrecords : db.records (Registry.rowSource .propertyWithResponse).relation =
      .ok (records, absent)) :
    Metric.averageLatency.run (latencyServer.executor db) prices "org_1" firstSecond =
      Metric.averageLatency.conclude (.ok
        [[("average_latency", Json.ofFloat (meanLatency (keptOfOrg1 c records)))]]) := by
  have hplan : Metric.averageLatency.plan prices .sqlite "org_1" firstSecond =
      Metric.averageLatency.query prices .sqlite ownScope.tenant firstSecondBody := by
    rw [Metric.plan, parse_firstSecond]
    rfl
  obtain ⟨q, hq⟩ : ∃ q, Metric.averageLatency.query prices .sqlite ownScope.tenant
      firstSecondBody = .ok q := ⟨_, rfl⟩
  obtain ⟨source, e, p, item, c', hsource, he, hc', hread, hargs⟩ := Metric.query_reads hq
  cases hsource
  cases he
  cases hc.symm.trans hc'
  rw [Metric.run_of_plan (latencyServer.executor db) (hplan.trans hq),
    Server.fetch_eq hread hrecords, hargs]
  rfl

/-- A request of "org_1" and one of "org_2", to both of which properties of "org_1" refer. -/
def reachedRows : List (String × List (String × Value)) :=
  [requestOf "org_1" "req_1", responseTo "req_1" 120, propertyOf "org_1" "req_1",
    requestOf "org_2" "req_2", responseTo "req_2" 300, propertyOf "org_1" "req_2"]

def othersRows : List (String × List (String × Value)) :=
  [requestOf "org_2" "req_3", responseTo "req_3" 900, propertyOf "org_2" "req_3"]

/-- What else "org_2" has does not show in the latency of "org_1". -/
theorem averageLatency_beside_others :
    (rowStore reachedRows).SamePart "org_1" (rowStore (reachedRows ++ othersRows)) ∧
      (rowStore reachedRows).SameReach "org_1" (rowStore (reachedRows ++ othersRows)) ∧
      Metric.averageLatency.run (latencyServer.executor (rowStore reachedRows))
        Pricing.overlapping "org_1" firstSecond = .ok (.amount 210) ∧
      Metric.averageLatency.run (latencyServer.executor (rowStore (reachedRows ++ othersRows)))
        Pricing.overlapping "org_1" firstSecond = .ok (.amount 210) := by
  have halone : Metric.averageLatency.run (latencyServer.executor (rowStore reachedRows))
      Pricing.overlapping "org_1" firstSecond = .ok (.amount 210) :=
    (run_latency rfl rfl).trans rfl
  have hsame : (rowStore reachedRows).SamePart "org_1"
      (rowStore (reachedRows ++ othersRows)) := Database.Alike.refl _
  have hreach : (rowStore reachedRows).SameReach "org_1"
      (rowStore (reachedRows ++ othersRows)) := Database.Alike.refl _
  have hbeside := Metric.run_own_rows (S := latencyServer) embedded_ordinary rfl .averageLatency
    Pricing.overlapping "org_1" firstSecond (rowStore_admitted _) (rowStore_admitted _) hsame
    fun _ => hreach
  exact ⟨hsame, hreach, halone, hbeside.symm.trans halone⟩

/-- A property of "org_1" that refers to a request of "org_2". -/
def lentRows : List (String × List (String × Value)) :=
  [requestOf "org_2" "req_2", propertyOf "org_1" "req_2"]

/-- A response to a request of "org_2" shows in the latency of "org_1". -/
theorem averageLatency_reads_others :
    Server.Ordinary latencyServer.holds ∧
      (rowStore lentRows).Admitted rowTables ∧
      (rowStore (lentRows ++ [responseTo "req_2" 300])).Admitted rowTables ∧
      (rowStore lentRows).SamePart "org_1" (rowStore (lentRows ++ [responseTo "req_2" 300])) ∧
      Metric.averageLatency.run (latencyServer.executor (rowStore lentRows))
        Pricing.overlapping "org_1" firstSecond = .ok (.amount 0) ∧
      Metric.averageLatency.run
        (latencyServer.executor (rowStore (lentRows ++ [responseTo "req_2" 300])))
        Pricing.overlapping "org_1" firstSecond = .ok (.amount 300) ∧
      (0 : Float) ≠ 300 :=
  ⟨embedded_ordinary, rowStore_admitted _, rowStore_admitted _, Database.Alike.refl _,
    (run_latency rfl rfl).trans rfl, (run_latency rfl rfl).trans rfl, by decide⟩

end RequestLog
