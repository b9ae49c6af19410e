import RequestLog.Proofs.Filter.Emit
import RequestLog.Sql.Compile

/-!
# What compiling does

A compiled filter is its checked condition: the text is that of the condition's
expression and the arguments are its operands, behind those that were there. A
filter that fails its check leaves the parameters as they were. Queries add their
selection in front of it. All later facts about texts and arguments start from
these equations and never look at how the parameters were threaded.
-/

namespace RequestLog

def ScopedFilter.check (s : ScopedFilter) (family : Family) :
    Except FilterError Condition := do
  let source ← s.relation family
  Filter.check family source s.tree

theorem ScopedFilter.source_of_relation {s : ScopedFilter} {family : Family}
    {source : Source} (h : s.relation family = .ok source) :
    Registry.source? family s.source = some source := by
  rw [relation] at h
  split at h
  · next hs => cases h; exact hs
  · cases h

theorem ScopedFilter.checks_of_check {s : ScopedFilter} {family : Family}
    {c : Condition} (h : s.check family = .ok c) :
    ∃ source, Registry.source? family s.source = some source ∧
      Filter.Checks family source s.tree c := by
  obtain ⟨source, hsource, h⟩ := ok_of_bind h
  exact ⟨source, source_of_relation hsource, Filter.checks_of_check h⟩

namespace Backend

variable {b : Backend} {s : ScopedFilter} {p : Params}

theorem addCondition_ok {c : Condition} (hp : p.backend = b)
    (h : s.check b.family = .ok c) :
    b.addCondition s p =
      (.ok (b.textOf (c.expr b p.size)), p.extend (c.operands.map b.encode)) := by
  rw [ScopedFilter.check] at h
  rw [addCondition, if_neg (not_not_intro hp)]
  cases hs : s.relation b.family with
  | error e => rw [hs] at h; cases h
  | ok source =>
      rw [hs] at h
      have hemit := Filter.emit_follows b.family source s.tree p
      have hcheck : Filter.check b.family source s.tree = .ok c := h
      rw [hcheck] at hemit
      have hrun : Filter.emit b.family source s.tree p = _ := hemit
      simp only [hrun, hp]

theorem addCondition_error {e : FilterError} (hp : p.backend = b)
    (h : s.check b.family = .error e) : b.addCondition s p = (.error e, p) := by
  rw [ScopedFilter.check] at h
  rw [addCondition, if_neg (not_not_intro hp)]
  cases hs : s.relation b.family with
  | error e => rw [hs] at h; cases h; rfl
  | ok source =>
      rw [hs] at h
      have hemit := Filter.emit_follows b.family source s.tree p
      have hcheck : Filter.check b.family source s.tree = .error e := h
      rw [hcheck] at hemit
      obtain ⟨vs, hrun⟩ := hemit
      simp only [hrun, Params.truncate_extend]

theorem addCondition_mismatch (hp : p.backend ≠ b) :
    b.addCondition s p = (.error (.invalidShape
      s!"parameters were collected for {p.backend.name}, compiler targets {b.name}"),
      p) := by
  rw [addCondition, if_pos hp]

theorem compileInto_eq (hp : p.backend = b) :
    b.compileInto s p = (s.check b.family).map fun c =>
      (b.textOf (c.expr b p.size), p.extend (c.operands.map b.encode)) := by
  rw [compileInto]
  cases h : s.check b.family with
  | error e => rw [addCondition_error hp h]; rfl
  | ok c => rw [addCondition_ok hp h]; rfl

theorem backend_of_compileInto {out : String × Params}
    (h : b.compileInto s p = .ok out) : p.backend = b := by
  by_cases hp : p.backend = b
  · exact hp
  · rw [compileInto, addCondition_mismatch hp] at h
    cases h

theorem compile_eq (b : Backend) (s : ScopedFilter) :
    b.compile s = (s.check b.family).map fun c =>
      ⟨b, b.textOf (c.expr b 0), c.operands.map b.encode⟩ := by
  rw [compile, compileInto_eq (b := b) rfl]
  cases s.check b.family with
  | error e => rfl
  | ok c => simp [Except.map, Params.finish, Params.extend, Params.size]

theorem compile_ok {q : Query} (h : b.compile s = .ok q) :
    ∃ c, s.check b.family = .ok c ∧
      q = ⟨b, b.textOf (c.expr b 0), c.operands.map b.encode⟩ := by
  rw [compile_eq] at h
  obtain ⟨c, hc, rfl⟩ := ok_of_map h
  exact ⟨c, hc, rfl⟩

theorem select_ok {items : Selection} {q : Query} (h : b.select s items = .ok q) :
    ∃ source text p c, Registry.source? b.family s.source = some source ∧
      items ⟨b, #[]⟩ = .ok (text, p) ∧ p.backend = b ∧ s.check b.family = .ok c ∧
      q = ⟨b, "SELECT " ++ text ++ " FROM " ++ source.relation.text ++ " WHERE " ++
        b.textOf (c.expr b p.size), p.values.toList ++ c.operands.map b.encode⟩ := by
  obtain ⟨source, hsource, h⟩ := ok_of_bind h
  obtain ⟨⟨text, p⟩, hitems, h⟩ := ok_of_bind h
  obtain ⟨⟨condition, q'⟩, hinto, h⟩ := ok_of_bind h
  cases h
  have hp := backend_of_compileInto hinto
  rw [compileInto_eq hp] at hinto
  obtain ⟨c, hc, hout⟩ := ok_of_map hinto
  cases hout
  subst hp
  refine ⟨source, text, p, c, s.source_of_relation hsource, hitems, rfl, hc, ?_⟩
  rw [Params.finish, Params.extend_toList]
  rfl

theorem select_error {items : Selection} {text : String} {e : FilterError}
    (hitems : items ⟨b, #[]⟩ = .ok (text, p)) (hp : p.backend = b)
    (h : s.check b.family = .error e) : b.select s items = .error e := by
  rw [ScopedFilter.check] at h
  rw [select]
  cases hsource : s.relation b.family with
  | error e' => rw [hsource] at h; cases h; rfl
  | ok source =>
      have hinto := compileInto_eq (s := s) hp
      rw [ScopedFilter.check, h] at hinto
      simp only [hitems]
      change (b.compileInto s p >>= _) = _
      rw [hinto]
      rfl

end Backend

/-- A filter with leaves of several forms, which every backend accepts. -/
def sampleScope : ScopedFilter where
  source := .requestResponseLog
  tenant := ⟨"org_1", by decide⟩
  filter :=
    ((FilterOf.leaf ⟨.requestResponseLog, .model, .contains, .text "gpt"⟩).or
      (.leaf ⟨.requestResponseLog, .latency, .in, .list [.int 100, .int 200]⟩)).and
        (.leaf ⟨.requestResponseLog, .createdAt, .lessThan, .timestamp ⟨1700000000, 5⟩⟩)

theorem sampleScope_compiles (b : Backend) : ∃ q, b.compile sampleScope = .ok q := by
  cases b <;> exact ⟨_, rfl⟩

end RequestLog
