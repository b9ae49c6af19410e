import RequestLog.Proofs.Filter.Isolation
import RequestLog.Proofs.Pairing
import RequestLog.Proofs.Pricing.Agreement
import RequestLog.Proofs.Sql.Select

/-!
# The query of a metric, read back

The item that a metric selects is read as it was written, but for the prices in it,
which have become literals. So the whole query is read as that item, the relation
behind the metric's table, and a condition whose left side asks for the rows of one
organization.
-/

namespace RequestLog

open Sql Pricing

theorem Registry.plain_of_source {family : Family} {t : Table} {source : Source}
    (h : source? family t = some source) : source.relation.plain = true := by
  cases family <;> cases t <;> cases h <;> decide

namespace Metric

variable {b : Backend} {n : Nat} {e e' : Expr}

theorem readsAs_total (h : ReadsAs b 0 e e') : ReadsAs b n (total e) (total e') :=
  readsAs_orZero (.call (by decide) (by decide) (.cons h .nil))

theorem readsAs_mean (h : ReadsAs b 0 e e') :
    ReadsAs b n (mean b e) (mean b e') := by
  have hzero : ReadsAs b 0 (.integer 0) (.integer 0) := readsAs_natural (k := 0) (by decide)
  have hnone : ReadsAs b 0 (.compare .eq .countAll (.integer 0))
      (.compare .eq .countAll (.integer 0)) :=
    .compare (by decide) readsAs_countAll (readsAs_natural (k := 0) (by decide))
  have hsome : ReadsAs b 0 (.arithmetic .div (b.toDouble (total e)) .countAll)
      (.arithmetic .div (b.toDouble (total e')) .countAll) :=
    .arithmetic (by decide) (readsAs_total h).toDouble readsAs_countAll
  exact .caseWhen (.one hnone hzero) hsome

theorem columnExpr_reads {t : Table} {c : Column} (h : columnExpr t b c = .ok e) :
    Operand b e e ∧ ∀ r ∈ e.columns, t.Has b.family r := by
  obtain ⟨field, hfield, rfl⟩ := columnExpr_ok h
  refine ⟨.column (Registry.plain_of_resolve hfield), fun r hr => ?_⟩
  rw [Expr.columns, List.mem_singleton] at hr
  exact ⟨c, field, hfield, hr.symm⟩

theorem columns_total (e : Expr) : (total e).columns = e.columns := by
  simp [total, Backend.columns_orZero, Expr.columns, Expr.columnsOf]

theorem columns_mean (e : Expr) : (mean b e).columns = e.columns := by
  simp [mean, columns_total, Backend.columns_toDouble, Expr.columns, Expr.columnsOf]

/-- What a metric selects is read as an expression over the columns of the table, whatever
the prices are. -/
theorem exprOver_reads {m : Metric} {t : Table} {prices : PriceTable} {p : Params}
    (h : m.exprOver t prices b ⟨b, #[]⟩ = .ok (e, p)) :
    ∃ e', ReadsAs b 0 e e' ∧ e.arguments = List.range' 1 p.size ∧
      ∀ c ∈ e'.columns, t.Has b.family c := by
  cases m with
  | totalRequests =>
      cases h
      refine ⟨_, readsAs_countAll, by rw [Expr.arguments]; rfl, ?_⟩
      rw [Expr.columns]
      exact List.forall_mem_nil _
  | activeUsers =>
      obtain ⟨user, huser, h⟩ := ok_of_bind h
      cases h
      obtain ⟨hread, hcolumns⟩ := columnExpr_reads huser
      refine ⟨_, (hread.reads 0).countDistinct, ?_, ?_⟩
      · rw [Expr.arguments, hread.arguments]
        rfl
      · rwa [Expr.columns]
  | averageLatency =>
      obtain ⟨latency, hlatency, h⟩ := ok_of_bind h
      cases h
      obtain ⟨hread, hcolumns⟩ := columnExpr_reads hlatency
      refine ⟨_, (readsAs_mean (hread.reads 0)).toDouble, ?_, ?_⟩
      · rw [arguments_mean, hread.arguments]
        rfl
      · rwa [Backend.columns_toDouble, columns_mean]
  | totalCost =>
      obtain ⟨model, hmodel, h⟩ := ok_of_bind h
      obtain ⟨prompt, hprompt, h⟩ := ok_of_bind h
      obtain ⟨completion, hcompletion, h⟩ := ok_of_bind h
      obtain ⟨hm, hmcolumns⟩ := columnExpr_reads hmodel
      obtain ⟨hp, hpcolumns⟩ := columnExpr_reads hprompt
      obtain ⟨hc, hccolumns⟩ := columnExpr_reads hcompletion
      rw [prices.caseExpr_eq] at h
      cases h
      refine ⟨_, (readsAs_total (prices.readsAs hm hp hc 0)).toDouble, ?_, ?_⟩
      · rw [arguments_total, Params.extend_size]
        refine (prices.arguments_expr hm.arguments hp.arguments hc.arguments 0).trans ?_
        exact congrArg (List.range' 1) (Nat.zero_add _).symm
      · rw [Backend.columns_toDouble, columns_total]
        intro c hc
        rcases List.mem_append.1 (prices.columns_readExpr 0 hc) with hc | hc
        · exact hmcolumns c hc
        · exact (List.mem_append.1 hc).elim (hpcolumns c) (hccolumns c)

theorem tableName_column (m : Metric) : tableName m.column.name = true := by
  cases m <;> decide

section

variable {m : Metric} {prices : PriceTable} {s : ScopedFilter} {t : Table} {q : Query}
  {p : Params}

theorem select_item (h : b.select s (m.selectionOver t prices b) = .ok q)
    (he : m.exprOver t prices b ⟨b, #[]⟩ = .ok (e, p)) :
    ∃ source c, Registry.source? b.family s.source = some source ∧
      s.check b.family = .ok c ∧
      q = ⟨b, "SELECT " ++ (b.textOf e ++ " AS " ++ m.column.name) ++ " FROM " ++
        source.relation.text ++ " WHERE " ++ b.textOf (c.expr b p.size),
        p.values.toList ++ c.operands.map b.encode⟩ := by
  obtain ⟨source, text, p', c, hsource, hitems, hp, hc, rfl⟩ := Backend.select_ok h
  rw [selectionOver, he] at hitems
  cases hitems
  exact ⟨source, c, hsource, hc, rfl⟩

theorem readsBack_of_check {c : Condition} (h : s.check b.family = .ok c) :
    ReadsBack b 0 (c.expr b n) := by
  obtain ⟨_, _, hchecks⟩ := ScopedFilter.checks_of_check h
  exact hchecks.legible.readsBack

/-- A query of a metric's item is read as what the item is read as, the relation behind
the filter's table and the checked filter, whose arguments come behind those of the item. -/
theorem select_reads_item (h : b.select s (m.selectionOver t prices b) = .ok q)
    (he : m.exprOver t prices b ⟨b, #[]⟩ = .ok (e, p)) (hitem : ReadsAs b 0 e e')
    (hargs : e.arguments = List.range' 1 p.size) :
    ∃ source c, Registry.source? b.family s.source = some source ∧
      s.check b.family = .ok c ∧
      Select.ofText? q.text =
        some ⟨[(e', m.column.name)], source.relation, c.expr b p.size⟩ ∧
      q.args = p.values.toList ++ c.operands.map b.encode := by
  obtain ⟨source, c, hsource, hc, rfl⟩ := select_item h he
  exact ⟨source, c, hsource, hc,
    ofText?_select hitem m.tableName_column (Registry.plain_of_source hsource)
      (readsBack_of_check hc) hargs (Condition.arguments_expr b p.size c),
    rfl⟩

end

section

variable {m : Metric} {prices : PriceTable} {tenant : Tenant} {body : RequestBody}
  {q : Query}

theorem query_reads (h : m.query prices b tenant body = .ok q) :
    ∃ source e p item c, Registry.source? b.family m.table = some source ∧
      m.expr prices b ⟨b, #[]⟩ = .ok (e, p) ∧
      ScopedFilter.check ⟨m.table, tenant, body.filterOver m.table⟩ b.family = .ok c ∧
      Select.ofText? q.text =
        some ⟨[(item, m.column.name)], source.relation, c.expr b p.size⟩ ∧
      q.args = p.values.toList ++ c.operands.map b.encode := by
  obtain ⟨_, _, _, _, _, hitems, -⟩ := Backend.select_ok h
  obtain ⟨⟨e, p⟩, he, -⟩ := ok_of_bind hitems
  obtain ⟨item, hitem, hargs, -⟩ := exprOver_reads he
  obtain ⟨source, c, hsource, hc, hread, hq⟩ := select_reads_item h he hitem hargs
  exact ⟨source, e, p, item, c, hsource, he, hc, hread, hq⟩

end

end Metric

/-- A checked condition begins with the organization's own rows, and its arguments with
the organization's name. -/
theorem ScopedFilter.expr_own {s : ScopedFilter} {b : Backend} {c : Condition}
    (h : s.check b.family = .ok c) (n : Nat) :
    ∃ field user vs, Registry.resolve? b.family s.source .organizationId = some field ∧
      c.expr b n =
        .junction .and (.compare .eq (.column field.column) (.argument (n + 1))) user ∧
      c.operands.map b.encode = .text s.tenant.name :: vs := by
  obtain ⟨_, field, user, -, hresolve, -, rfl⟩ := check_ok h
  have hown : (Test.compare .eq (.text s.tenant.name)).expr b field n =
      .compare .eq (.column field.column) (.argument (n + 1)) := by
    change Expr.compare .eq _ (b.bound field.kind (n + 1)) = _
    rw [Backend.bound, Backend.beside, Registry.kind_of_resolve hresolve]
    rfl
  refine ⟨field, user.expr b (n + 1), _, hresolve, ?_, rfl⟩
  rw [Condition.expr, Condition.expr, hown]
  rfl

end RequestLog
