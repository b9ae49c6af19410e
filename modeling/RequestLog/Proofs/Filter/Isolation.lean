import RequestLog.Proofs.Filter.Legible
import RequestLog.Proofs.Sql.Balance

/-!
# No query leaves its tenant

The condition of every compiled query is a conjunction whose left side asks for
the tenant's own rows. What the caller asked for stands between the parentheses
of the right side and cannot get out of them, because its parentheses are balanced.
The tenant's name is an argument, and its number is the first that is free when
the condition is begun. A table whose rows belong to nobody cannot be queried.
-/

namespace RequestLog

open Sql

/-! ## The tenant's own leaf -/

/-- A checked scoped filter is a conjunction with the tenant's leaf on the left. -/
theorem ScopedFilter.check_ok {s : ScopedFilter} {family : Family} {c : Condition}
    (h : s.check family = .ok c) :
    ∃ source field user,
      Registry.source? family s.source = some source ∧
      Registry.resolve? family s.source .organizationId = some field ∧
      Filter.check family source s.filter = .ok user ∧
      c = .junction .and (.test field (.compare .eq (.text s.tenant.name))) user := by
  obtain ⟨source, hsource, h⟩ := ok_of_bind h
  obtain ⟨own, hown, h⟩ := ok_of_bind h
  obtain ⟨user, huser, h⟩ := ok_of_bind h
  cases h
  refine ⟨source, ?_⟩
  cases Leaf.checks_of_check hown with
  | @leaf _ field t _ hresolve _ hasks =>
      refine ⟨field, user, source_of_relation hsource, hresolve, huser, ?_⟩
      cases hasks with
      | compare hop htakes =>
          cases hop
          generalize field.kind = kind at htakes
          cases htakes
          rfl

/-- Without a column for the tenant, the tenant's leaf is the first that is wrong. -/
theorem ScopedFilter.check_unowned {s : ScopedFilter} {family : Family}
    (h : Registry.resolve? family s.source .organizationId = none) :
    s.check family = .error (.unknownField family s.source .organizationId) := by
  rw [check, relation]
  cases hs : Registry.source? family s.source with
  | none => rfl
  | some source =>
      have hfield : Leaf.field family source
          ⟨s.source, .organizationId, .equals, .text s.tenant.name⟩ =
            .error (.unknownField family s.source .organizationId) := by
        rw [Leaf.field, if_pos (Registry.provides_own hs), h]
        rfl
      change Filter.check family source s.tree = _
      rw [tree, ownRows, FilterOf.and, Filter.check, Filter.check, Leaf.check, hfield]
      rfl

theorem Filter.Checks.provides {family : Family} {source : Source} {f : Filter}
    {c : Condition} (h : f.Checks family source c) :
    ∀ l ∈ f.leaves, source.provides.contains l.table = true := by
  induction h with
  | all => simp [FilterOf.leaves]
  | leaf hprovides _ _ _ => simpa [FilterOf.leaves] using hprovides
  | branch _ _ _ ihl ihr =>
      intro l hl
      rcases List.mem_append.1 hl with hl | hl
      · exact ihl l hl
      · exact ihr l hl

/-! ## The text around it -/

/-- A condition behind the arguments of `p`, in the form that keeps a tenant's rows
apart: the tenant's own leaf, with the first free argument, and beside it what the
filter asks for, which stays between its parentheses. -/
def Backend.Isolates (b : Backend) (s : ScopedFilter) (source : Source) (p : Params)
    (text : String) (args : List Scalar) : Prop :=
  ∃ field user q,
    Registry.resolve? b.family s.source .organizationId = some field ∧
    Filter.emit b.family source s.filter (p.push (.text s.tenant.name)).2 =
      (.ok user, q) ∧
    text = "(" ++ field.identifier ++ " = " ++ b.argumentText (p.size + 1) ++
      ") AND (" ++ b.textOf user ++ ")" ∧
    nesting 0 (b.textOf user).toList = some 0 ∧
    args = q.values.toList ∧
    p.values.toList ++ [.text s.tenant.name] <+: args ∧
    ∀ l ∈ s.filter.leaves, source.provides.contains l.table = true

theorem Backend.isolates_of_check {b : Backend} {s : ScopedFilter} {p : Params}
    {c : Condition} (hp : p.backend = b) (h : s.check b.family = .ok c) :
    ∃ source, Registry.source? b.family s.source = some source ∧
      b.Isolates s source p (b.textOf (c.expr b p.size))
        (p.values.toList ++ c.operands.map b.encode) := by
  obtain ⟨source, field, user, hsource, hresolve, huser, rfl⟩ := s.check_ok h
  have hchecks := Filter.checks_of_check huser
  have hpush : (p.push (.text s.tenant.name)).2 = p.extend [.text s.tenant.name] := by
    rw [Params.push_eq]
  have hemit := Filter.emit_follows b.family source s.filter
    (p.push (.text s.tenant.name)).2
  rw [huser] at hemit
  have hrun : Filter.emit b.family source s.filter _ = _ := hemit
  have hbound : p.backend.bound field.kind (p.size + 1) = .argument (p.size + 1) := by
    rw [Backend.bound, Backend.beside, Registry.kind_of_resolve hresolve]
    rfl
  have hargs : p.values.toList ++ ((Condition.junction .and
      (.test field (.compare .eq (.text s.tenant.name))) user).operands.map b.encode) =
        ((p.push (.text s.tenant.name)).2.extend
          (user.operands.map b.encode)).values.toList := by
    rw [hpush, Params.extend_toList, Params.extend_toList, List.append_assoc]
    rfl
  subst hp
  refine ⟨source, hsource, field, _, _, hresolve, hrun, ?_, hchecks.legible.balanced 0,
    hargs, ?_, hchecks.provides⟩
  · have heq : " = " = " " ++ (Comparison.eq.text ++ " ") := rfl
    have hand : ") AND (" = ") " ++ (Junction.and.text ++ " (") := rfl
    rw [hpush, Condition.expr, Backend.textOf, text_junction, Condition.expr, Test.expr,
      hbound, text_compare, heq, hand]
    simp only [Expr.text, String.append_assoc, Params.extend_size, Params.extend_backend]
    rfl
  · rw [hargs, hpush, Params.extend_toList, Params.extend_toList]
    exact List.prefix_append _ _

/-! ## Compiled filters and queries -/

/-- Whatever compiles keeps to its tenant, alone or behind any selection; and over a
table whose rows have no tenant, nothing compiles. -/
theorem Backend.tenant_isolation (b : Backend) (s : ScopedFilter) :
    (∀ q, b.compile s = .ok q →
      ∃ source, Registry.source? b.family s.source = some source ∧
        b.Isolates s source ⟨b, #[]⟩ q.text q.args) ∧
    (∀ items q, b.select s items = .ok q →
      ∃ source text p condition, Registry.source? b.family s.source = some source ∧
        items ⟨b, #[]⟩ = .ok (text, p) ∧
        q.text = "SELECT " ++ text ++ " FROM " ++ source.relation.text ++
          " WHERE " ++ condition ∧
        b.Isolates s source p condition q.args) ∧
    (Registry.resolve? b.family s.source .organizationId = none →
      b.compile s = .error (.unknownField b.family s.source .organizationId) ∧
      (∀ items q, b.select s items ≠ .ok q) ∧
      ∀ items text p, items ⟨b, #[]⟩ = .ok (text, p) → p.backend = b →
        b.select s items =
          .error (.unknownField b.family s.source .organizationId)) := by
  refine ⟨fun q h => ?_, fun items q h => ?_, fun h => ⟨?_, fun items q hq => ?_,
    fun items text p hitems hp => ?_⟩⟩
  · obtain ⟨c, hc, rfl⟩ := compile_ok h
    obtain ⟨source, hsource, hisolates⟩ := isolates_of_check (p := ⟨b, #[]⟩) rfl hc
    exact ⟨source, hsource, hisolates⟩
  · obtain ⟨source, text, p, c, hsource, hitems, hp, hc, rfl⟩ := select_ok h
    obtain ⟨source', hsource', hisolates⟩ := isolates_of_check hp hc
    cases hsource.symm.trans hsource'
    exact ⟨source, text, p, _, hsource, hitems, rfl, hisolates⟩
  · rw [compile_eq, ScopedFilter.check_unowned h]
    rfl
  · obtain ⟨_, _, _, c, _, _, _, hc, _⟩ := select_ok hq
    rw [ScopedFilter.check_unowned h] at hc
    cases hc
  · exact select_error hitems hp (ScopedFilter.check_unowned h)

theorem sampleScope_isolated :
    ∃ q source, Backend.postgres.compile sampleScope = .ok q ∧
      Backend.postgres.Isolates sampleScope source ⟨.postgres, #[]⟩ q.text q.args := by
  obtain ⟨q, h⟩ := sampleScope_compiles .postgres
  obtain ⟨source, -, hisolates⟩ := (Backend.postgres.tenant_isolation sampleScope).1 q h
  exact ⟨q, source, h, hisolates⟩

end RequestLog
