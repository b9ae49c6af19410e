import RequestLog.Filter.Body
import RequestLog.Proofs.Filter.Isolation
import RequestLog.Proofs.Instant.Order
import RequestLog.Proofs.Json.Token

/-!
# The bounds of a range as they are bound

A range that was accepted starts no later than it ends, and the two bounds are the
arguments behind the tenant's name. A store that is given the instants themselves is
given them in their order. One that is given microseconds is, too, unless the range
begins in a leap second and ends early in the next second: then the lower bound that
is bound is above the upper one, and no row lies between them.
-/

namespace RequestLog

/-- Whether one bound does not lie above another, both being instants or numbers. -/
def Scalar.atMost : Scalar → Scalar → Bool
  | .int i, .int j => i ≤ j
  | .timestamp t, .timestamp u => t.le u
  | _, _ => false

/-! ## Instants of requests -/

namespace RequestBody

theorem Moment.nanos_of_resolve {field : String} {m : Moment} {t : Instant}
    (h : m.resolve field = .ok t) : t.nanos < Instant.nanosEnd := by
  cases m with
  | millis ms =>
      rw [resolve] at h
      split at h
      · next t' hms =>
          cases h
          exact Instant.nanos_of_ofMillis hms
      · cases h
  | text s =>
      rw [resolve] at h
      split at h
      · next t' hread =>
          cases h
          exact Instant.nanos_of_read hread
      · cases h

/-- Both ends of an accepted range were read from moments of the request. -/
theorem moments_of_parse {text : String} {body : RequestBody}
    (h : parse text = .ok body) :
    ∃ start stop : Moment, start.resolve "timeFilter.start" = .ok body.range.start ∧
      stop.resolve "timeFilter.end" = .ok body.range.stop := by
  rw [parse] at h
  split at h
  · cases h
  · split at h
    · cases h
    · next w hw =>
        rw [ofWire] at h
        split at h
        · cases h
        · next start stop hrange =>
            obtain ⟨t, ht, h⟩ := ok_of_bind h
            obtain ⟨u, hu, h⟩ := ok_of_bind h
            obtain ⟨range, hends, h⟩ := ok_of_bind h
            have hbody : body.range = range := by
              dsimp only at h
              split at h
              · obtain ⟨filter, -, h⟩ := ok_of_bind h
                cases h
                rfl
              · obtain ⟨filter, -, h⟩ := ok_of_bind h
                cases h
                rfl
            rw [TimeRange.ofEnds] at hends
            split at hends
            · cases hends
              rw [hbody]
              exact ⟨start, stop, ht, hu⟩
            · cases hends

end RequestBody

/-! ## Bounds as arguments -/

/-- How the values bound for two instants that are in order compare. -/
theorem Backend.atMost_encodeInstant {t u : Instant} (h : t.le u = true)
    (ht : t.nanos < Instant.nanosEnd) (b : Backend) :
    (b.encodeInstant t).atMost (b.encodeInstant u) = true ↔
      b = .postgres ∨ t.overtakes u = false := by
  have hmicros := Instant.micros_le_iff h ht
  cases b with
  | postgres => simp [encodeInstant, Scalar.atMost, h]
  | sqlite | duckdb | clickhouse => simp [encodeInstant, Scalar.atMost, hmicros]

theorem Operator.Asks.test_of_comparison {kind : Kind} {op : Operator}
    {c : Sql.Comparison} {t : Test} {u : Instant} (h : op.Asks kind (.timestamp u) t)
    (hop : op.comparison? = some c) : t = .compare c (.timestamp u) := by
  cases h with
  | contains | like => cases hop
  | compare hc htakes =>
      cases hop.symm.trans hc
      cases htakes
      rfl

/-- What a bound of a range is checked to. -/
theorem TimeRange.bound_checks {family : Family} {source : Source} {table : Table}
    {op : Operator} {cmp : Sql.Comparison} {t : Instant} {c : Condition}
    (h : Filter.Checks family source (bound table op t) c)
    (hop : op.comparison? = some cmp) :
    ∃ field, Registry.resolve? family table .createdAt = some field ∧
      c = .test field (.compare cmp (.timestamp t)) := by
  cases h with
  | @leaf _ field _ _ hresolve _ hasks =>
      rw [hasks.test_of_comparison hop]
      exact ⟨field, hresolve, rfl⟩

theorem TimeRange.filter_checks {family : Family} {source : Source} {table : Table}
    {r : TimeRange} {c : Condition} (h : Filter.Checks family source (r.filter table) c) :
    ∃ created, Registry.resolve? family table .createdAt = some created ∧
      c = .junction .and (.test created (.compare .ge (.timestamp r.start)))
        (.test created (.compare .le (.timestamp r.stop))) := by
  cases h with
  | branch _ hstart hstop =>
      obtain ⟨created, hcreated, rfl⟩ := bound_checks hstart rfl
      obtain ⟨created', hcreated', rfl⟩ := bound_checks hstop rfl
      cases hcreated.symm.trans hcreated'
      exact ⟨created, hcreated, rfl⟩

/-- The operands of a request over a table begin with the bounds of its range. -/
theorem Filter.Checks.operands_filterOver {family : Family} {source : Source}
    {body : RequestBody} {table : Table} {c : Condition}
    (h : Filter.Checks family source (body.filterOver table) c) :
    ∃ rest, c.operands =
      .timestamp body.range.start :: .timestamp body.range.stop :: rest := by
  cases h with
  | @branch _ _ range user _ hrange huser =>
      obtain ⟨created, -, rfl⟩ := TimeRange.filter_checks hrange
      exact ⟨user.operands, rfl⟩

theorem Backend.args_filterOver {b : Backend} {table : Table} {tenant : Tenant}
    {body : RequestBody} {q : Query}
    (h : b.compile ⟨table, tenant, body.filterOver table⟩ = .ok q) :
    ∃ rest, q.args = .text tenant.name :: b.encodeInstant body.range.start ::
      b.encodeInstant body.range.stop :: rest := by
  obtain ⟨c, hc, rfl⟩ := compile_ok h
  obtain ⟨source, field, user, -, -, huser, rfl⟩ := ScopedFilter.check_ok hc
  obtain ⟨rest, hrest⟩ := (Filter.checks_of_check huser).operands_filterOver
  refine ⟨rest.map b.encode, ?_⟩
  simp only [Condition.operands, Test.operands, hrest]
  rfl

/-- Two instants of requests that are in order are bound in order, and so are the
bounds of every accepted range: on every backend but those that are given microseconds
of an instant in a leap second and of one early in the second that follows. -/
theorem Backend.bounds_ordered_iff (b : Backend) :
    (∀ (field field' : String) (m m' : RequestBody.Moment) (t u : Instant),
      m.resolve field = .ok t → m'.resolve field' = .ok u → t.le u = true →
      ((b.encodeInstant t).atMost (b.encodeInstant u) = true ↔
        b = .postgres ∨ t.overtakes u = false)) ∧
    (∀ (text : String) (body : RequestBody) (table : Table) (tenant : Tenant) (q : Query),
      RequestBody.parse text = .ok body →
      b.compile ⟨table, tenant, body.filterOver table⟩ = .ok q →
      ∃ lower upper rest, q.args = .text tenant.name :: lower :: upper :: rest ∧
        lower = b.encodeInstant body.range.start ∧
        upper = b.encodeInstant body.range.stop ∧
        (lower.atMost upper = true ↔
          b = .postgres ∨ body.range.start.overtakes body.range.stop = false)) := by
  refine ⟨?_, ?_⟩
  · intro field field' m m' t u ht _ hle
    exact b.atMost_encodeInstant hle (RequestBody.Moment.nanos_of_resolve ht)
  · intro text body table tenant q hparse hq
    obtain ⟨rest, hargs⟩ := args_filterOver hq
    obtain ⟨start, -, hstart, -⟩ := RequestBody.moments_of_parse hparse
    exact ⟨_, _, rest, hargs, rfl, rfl, b.atMost_encodeInstant body.range.ordered
      (RequestBody.Moment.nanos_of_resolve hstart)⟩

/-! ## A range out of a leap second -/

/-- A request about 700 milliseconds, from the leap second of 2016 on. -/
def leapText : String :=
  "\x7b\"timeFilter\":\x7b\"start\":\"2016-12-31T23:59:60.5Z\",\"end\":\"2017-01-01T00:00:00.2Z\"\x7d\x7d"

def leapBody : RequestBody where
  filter := .all
  range := ⟨⟨1483228799, 1500000000⟩, ⟨1483228800, 200000000⟩, by decide⟩

def leapScope : ScopedFilter :=
  ⟨.requestResponseLog, ⟨"org_1", rfl⟩, leapBody.filterOver .requestResponseLog⟩

theorem parse_leapText : RequestBody.parse leapText = .ok leapBody := by
  have htokens : Json.tokens leapText.toList =
      [.punct .openObject, .text (.ok "timeFilter"), .punct .colon,
        .punct .openObject, .text (.ok "start"), .punct .colon,
        .text (.ok "2016-12-31T23:59:60.5Z"), .punct .comma,
        .text (.ok "end"), .punct .colon, .text (.ok "2017-01-01T00:00:00.2Z"),
        .punct .closeObject, .punct .closeObject] := by
    iterate 13 refine Json.tokensAfter_cons rfl rfl ?_
    exact Json.tokensAfter_nil
  have hwire : RequestBody.decodeWire leapText =
      .ok ⟨none, some (.text "2016-12-31T23:59:60.5Z", .text "2017-01-01T00:00:00.2Z")⟩ := by
    rw [RequestBody.decodeWire, Json.decodeWhole, htokens]
    rfl
  rw [RequestBody.parse, hwire]
  rfl

/-- Its bounds are bound in order where they stay instants. -/
theorem leapText_ordered :
    ∃ q lower upper rest, Backend.postgres.compile leapScope = .ok q ∧
      q.args = .text "org_1" :: lower :: upper :: rest ∧ lower.atMost upper = true := by
  obtain ⟨q, hq⟩ : ∃ q, Backend.postgres.compile leapScope = .ok q := ⟨_, rfl⟩
  obtain ⟨lower, upper, rest, hargs, -, -, hordered⟩ :=
    (Backend.postgres.bounds_ordered_iff).2 leapText leapBody .requestResponseLog
      ⟨"org_1", by decide⟩ q parse_leapText hq
  exact ⟨q, lower, upper, rest, hq, hargs, hordered.2 (.inl rfl)⟩

/-- They are bound as an inverted range where they become microseconds. -/
theorem leapText_inverted :
    RequestBody.parse leapText = .ok leapBody ∧
      ∃ q, Backend.sqlite.compile leapScope = .ok q ∧
        q.args = [.text "org_1", .int 1483228800500000, .int 1483228800200000] :=
  ⟨parse_leapText, _, rfl, rfl⟩

end RequestLog
