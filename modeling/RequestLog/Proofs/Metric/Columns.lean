import RequestLog.Proofs.Metric.Query
import RequestLog.Proofs.Schema.Declared

/-!
# A query finds the columns that it names

Whatever a metric selects, and from whatever rows, its query names no column that its own
relation does not have: each is a field of a table that the relation joins, and the schema
of the store declares it as the registry says (`Metric.columns_stored`).
-/

namespace RequestLog

open Sql

/-- A column of a query that the registry knows, and that is in the store as whatever field
the registry knows it for. -/
def Sql.ColumnRef.Stored (c : ColumnRef) (b : Backend) (r : Relation) : Prop :=
  (∃ t column f, Registry.resolve? b.family t column = some f ∧ f.column = c) ∧
    ∀ t column f, Registry.resolve? b.family t column = some f → f.column = c →
      f.StoredIn b r

theorem Table.Has.stored {b : Backend} {own t : Table} {c : ColumnRef} {source : Source}
    (h : t.Has b.family c) (hsource : Registry.source? b.family own = some source)
    (ht : source.provides.contains t = true) : c.Stored b source.relation := by
  obtain ⟨column, f, hf, rfl⟩ := h
  refine ⟨⟨t, column, f, hf, rfl⟩, fun u d g hg hsame => ?_⟩
  have hjoined := Registry.joined_of_provides hsource ht hf
  exact Registry.storedIn_of_joined hsource hg (hsame ▸ hjoined)

/-- Tables are joined by columns that the registry knows. -/
theorem Registry.joined_has {family : Family} {own : Table} {source : Source}
    (h : source? family own = some source) :
    ∀ c ∈ source.relation.columns,
      ∃ t, source.provides.contains t = true ∧ t.Has family c := by
  have hid : Table.request.Has .row ⟨"request", "id"⟩ := ⟨.id, _, rfl, rfl⟩
  have hresponse : Table.response.Has .row ⟨"response", "request_id"⟩ :=
    ⟨.requestId, _, rfl, rfl⟩
  have hproperties : Table.properties.Has .row ⟨"properties", "request_id"⟩ :=
    ⟨.requestId, _, rfl, rfl⟩
  cases family <;> cases own <;> cases h
  case row.requestResponseLog.refl =>
    exact List.forall_mem_cons.2 ⟨⟨_, rfl, hresponse⟩,
      List.forall_mem_singleton.2 ⟨_, rfl, hid⟩⟩
  case row.propertyWithResponse.refl =>
    exact List.forall_mem_cons.2 ⟨⟨_, rfl, hid⟩,
      List.forall_mem_cons.2 ⟨⟨_, rfl, hproperties⟩,
        List.forall_mem_cons.2 ⟨⟨_, rfl, hresponse⟩,
          List.forall_mem_singleton.2 ⟨_, rfl, hid⟩⟩⟩⟩
  all_goals exact List.forall_mem_nil _

/-- Every column that the text of a metric's query names, in any of its parts, is one of a table
that the query joins. The schema declares it there with the type of its kind, and if it is
never null then it is declared so, and no join makes it null. The rows may be those of any
source; a metric's own query (`Metric.query`) is over its own table. -/
theorem Metric.columns_stored {m : Metric} {prices : Pricing.PriceTable} {b : Backend}
    {s : ScopedFilter} {q : Query}
    (h : b.select s (m.selectionOver s.source prices b) = .ok q) :
    ∃ source item condition, Registry.source? b.family s.source = some source ∧
      Select.ofText? q.text =
        some ⟨[(item, m.column.name)], source.relation, condition⟩ ∧
      ∀ t ∈ tokens q.text, ∀ c ∈ t.columns, c.Stored b source.relation := by
  obtain ⟨_, _, _, _, _, hitems, -⟩ := Backend.select_ok h
  obtain ⟨⟨e, p⟩, he, -⟩ := ok_of_bind hitems
  obtain ⟨item, hitem, hargs, hcolumns⟩ := exprOver_reads he
  obtain ⟨source, c, hsource, hc, rfl⟩ := select_item h he
  obtain ⟨source', hsource', hchecks⟩ := ScopedFilter.checks_of_check hc
  cases hsource.symm.trans hsource'
  have hplain := Registry.plain_of_source hsource
  have hcondition := readsBack_of_check (n := p.size) hc
  have hcargs := Condition.arguments_expr b p.size c
  refine ⟨source, item, _, hsource,
    ofText?_select hitem m.tableName_column hplain hcondition hargs hcargs, ?_⟩
  have hperm := columns_select hitem m.tableName_column hplain hcondition hargs hcargs
  have provided : ∀ r ∈ item.columns ++ (source.relation.columns ++ (c.expr b p.size).columns),
      ∃ t, source.provides.contains t = true ∧ t.Has b.family r :=
    List.forall_mem_append.2 ⟨
      fun r hr => ⟨s.source, Registry.provides_own hsource, hcolumns r hr⟩,
      List.forall_mem_append.2 ⟨Registry.joined_has hsource, hchecks.columns b p.size⟩⟩
  intro t ht r hr
  obtain ⟨table, htable, hhas⟩ :=
    provided r (hperm.subset (List.mem_flatMap.2 ⟨t, ht, hr⟩))
  exact hhas.stored hsource htable

/-- The cost of a request is that of the tokens of its response, which it is joined with. -/
theorem sampleScope_stored :
    ∃ q item condition, Backend.postgres.select sampleScope
        (Metric.totalCost.selectionOver sampleScope.source Pricing.overlapping .postgres) =
          .ok q ∧
      Select.ofText? q.text = some ⟨[(item, "total_cost")],
        ⟨"request", [Registry.joinResponse]⟩, condition⟩ ∧
      ∀ t ∈ tokens q.text, ∀ c ∈ t.columns,
        c.Stored .postgres ⟨"request", [Registry.joinResponse]⟩ := by
  have hselect : ∃ q, Backend.postgres.select sampleScope
      (Metric.totalCost.selectionOver sampleScope.source Pricing.overlapping .postgres) =
        .ok q := ⟨_, rfl⟩
  obtain ⟨q, h⟩ := hselect
  obtain ⟨source, item, condition, hsource, htext, hstored⟩ := Metric.columns_stored h
  cases hsource
  exact ⟨q, item, condition, h, htext, hstored⟩

end RequestLog
