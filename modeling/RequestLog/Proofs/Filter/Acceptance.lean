import RequestLog.Proofs.Filter.Agreement

/-!
# Which filters are accepted, and what is wrong with the others

A leaf is accepted when its table is among those the source provides, its column is one
that the family has for this table, its operator suits the kind of the column, and its
value is one that the operator can be given there (`Leaf.WellTyped`). A leaf that is not
accepted has one offence, the first of these conditions that it fails (`Leaf.Offends`).

A filter is accepted when all its leaves are, and one that is not is refused for the
offence of its first bad leaf. This is proved over the list of the leaves, because
checking a tree fails as checking its leaves in their order does: a list fails as the
first of its elements that fails (`mapM_error_iff`), and that is all there is to say of
the order, for the leaves as for the elements of a list operand.

Whatever is refused leaves the parameters as they were, and whatever is accepted adds its
own values to them, which do not depend on those that were there.
-/

namespace RequestLog

/-! ## Values -/

/-- A single value that a column of some kind can be compared with. -/
def Kind.Fits (kind : Kind) (v : Scalar) : Prop := ∃ w, kind.Takes v w

/-- How many values an operator compares a column with. -/
inductive Operator.Arity where
  | none
  | one
  | many
  deriving DecidableEq

def Operator.arity : Operator → Operator.Arity
  | .isNull | .isNotNull => .none
  | .in => .many
  | _ => .one

/-- A value that an operator can be given beside a column of some kind. -/
def Operator.Admits (op : Operator) (kind : Kind) (v : Scalar) : Prop :=
  match op.arity with
  | .none => v = .null
  | .one => kind.Fits v
  | .many => ∃ items, v = .list items ∧ ∀ item ∈ items, kind.Fits item

/-- What an operator is given and cannot take, with what was due in its place. -/
inductive Operator.Misfit (op : Operator) (kind : Kind) : Scalar → String → Scalar → Prop
  | present {v : Scalar} : op.arity = .none → v ≠ .null → Misfit op kind v "null" v
  | single {v : Scalar} : op.arity = .one → ¬ kind.Fits v → Misfit op kind v kind.name v
  | noList {v : Scalar} : op.arity = .many → (∀ items, v ≠ .list items) →
      Misfit op kind v "list" v
  | element {before after : List Scalar} {v : Scalar} : op.arity = .many →
      (∀ item ∈ before, kind.Fits item) → ¬ kind.Fits v →
      Misfit op kind (.list (before ++ v :: after)) kind.name v

theorem Kind.operand_error_iff {kind : Kind} {name : String} {v : Scalar} {e : FilterError} :
    kind.operand name v = .error e ↔
      ¬ kind.Fits v ∧ e = .typeMismatch name kind.name v.typeName := by
  cases h : kind.operand name v with
  | ok w =>
      constructor
      · intro hne
        cases hne
      · rintro ⟨hmisfit, -⟩
        exact absurd ⟨w, takes_of_operand h⟩ hmisfit
  | error e' =>
      have hfirst : e' = .typeMismatch name kind.name v.typeName := by
        cases kind <;> cases v <;> cases h <;> rfl
      have hmisfit : ¬ kind.Fits v := by
        rintro ⟨w, hw⟩
        cases hw <;> cases h
      rw [hfirst, Except.error.injEq]
      exact ⟨fun he => ⟨hmisfit, he.symm⟩, fun he => he.2.symm⟩

theorem Kind.exists_operand_iff {kind : Kind} {name : String} {v : Scalar} :
    (∃ w, kind.operand name v = .ok w) ↔ kind.Fits v := by
  constructor
  · rintro ⟨w, hw⟩
    exact ⟨w, takes_of_operand hw⟩
  · rintro ⟨w, hw⟩
    cases hw <;> exact ⟨_, rfl⟩

namespace Operator

variable {op : Operator} {kind : Kind} {name : String} {v : Scalar} {e : FilterError}

/-- What is asked of an operand that has to be null. -/
theorem exists_nullTest_iff {negated : Bool} :
    (∃ t, test.nullTest name v negated = .ok t) ↔ v = .null := by
  rw [test.nullTest]
  cases v <;> simp [Scalar.isNull, typeMismatch]

theorem nullTest_error_iff {negated : Bool} :
    test.nullTest name v negated = .error e ↔
      v ≠ .null ∧ e = .typeMismatch name "null" v.typeName := by
  rw [test.nullTest]
  cases v <;> simp [Scalar.isNull, typeMismatch, eq_comm]

theorem exists_test_iff : (∃ t, op.test name kind v = .ok t) ↔ op.Admits kind v := by
  cases op with
  | isNull | isNotNull => exact exists_nullTest_iff
  | «in» =>
      cases v with
      | list items =>
          have hitems : (∃ vs, items.mapM (kind.operand name) = .ok vs) ↔
              ∀ item ∈ items, kind.Fits item := by
            rw [exists_ok_mapM_iff]
            exact forall₂_congr fun item _ => Kind.exists_operand_iff
          exact exists_ok_map_iff.trans (hitems.trans (by simp [Admits, arity]))
      | null | bool | int | float | text | timestamp =>
          simp [test, typeMismatch, Admits, arity]
  | contains | like | equals | notEquals | greaterThan | lessThan | greaterOrEqual
  | lessOrEqual => exact exists_ok_map_iff.trans Kind.exists_operand_iff

theorem test_error_iff :
    op.test name kind v = .error e ↔
      ∃ expected actual, op.Misfit kind v expected actual ∧
        e = .typeMismatch name expected actual.typeName := by
  cases op with
  | isNull | isNotNull =>
      refine nullTest_error_iff.trans ⟨?_, ?_⟩
      · rintro ⟨hv, rfl⟩
        exact ⟨_, _, .present rfl hv, rfl⟩
      · rintro ⟨expected, actual, hmisfit, rfl⟩
        cases hmisfit with
        | present _ hv => exact ⟨hv, rfl⟩
        | single harity | noList harity | element harity => cases harity
  | «in» =>
      cases v with
      | list items =>
          refine map_error_iff.trans (mapM_error_iff.trans ⟨?_, ?_⟩)
          · rintro ⟨before, item, after, rfl, hbefore, hitem⟩
            obtain ⟨hmisfit, rfl⟩ := Kind.operand_error_iff.1 hitem
            have hfit : ∀ u ∈ before, kind.Fits u :=
              fun u hu => Kind.exists_operand_iff.1 (hbefore u hu)
            exact ⟨_, _, .element rfl hfit hmisfit, rfl⟩
          · rintro ⟨expected, actual, hmisfit, rfl⟩
            cases hmisfit with
            | noList _ hv => exact absurd rfl (hv items)
            | element _ hfit hv =>
                exact ⟨_, _, _, rfl, fun u hu => Kind.exists_operand_iff.2 (hfit u hu),
                  Kind.operand_error_iff.2 ⟨hv, rfl⟩⟩
            | present harity | single harity => cases harity
      | null | bool | int | float | text | timestamp =>
          constructor
          · intro h
            cases h
            exact ⟨_, _, .noList rfl fun items hne => (by cases hne), rfl⟩
          · rintro ⟨expected, actual, hmisfit, rfl⟩
            cases hmisfit with
            | noList => rfl
            | present harity | single harity => cases harity
  | contains | like | equals | notEquals | greaterThan | lessThan | greaterOrEqual
  | lessOrEqual =>
      refine map_error_iff.trans (Kind.operand_error_iff.trans ⟨?_, ?_⟩)
      · rintro ⟨hv, rfl⟩
        exact ⟨_, _, .single rfl hv, rfl⟩
      · rintro ⟨expected, actual, hmisfit, rfl⟩
        cases hmisfit with
        | single _ hv => exact ⟨hv, rfl⟩
        | present harity | noList harity | element harity => cases harity

end Operator

/-! ## Leaves -/

/-- What a leaf has to be to be accepted. -/
def Leaf.WellTyped (family : Family) (source : Source) (l : Leaf) : Prop :=
  source.provides.contains l.table = true ∧
    ∃ field, Registry.resolve? family l.table l.column = some field ∧
      l.operator.supports field.kind = true ∧ l.operator.Admits field.kind l.value

/-- What is wrong with a leaf: the first of the conditions that it does not meet. -/
inductive Leaf.Offends (family : Family) (source : Source) (l : Leaf) : FilterError → Prop
  | notProvided : source.provides.contains l.table = false →
      Offends family source l (.unknownField family l.table l.column)
  | unknown : source.provides.contains l.table = true →
      Registry.resolve? family l.table l.column = none →
      Offends family source l (.unknownField family l.table l.column)
  | unsupported {field : Field} : source.provides.contains l.table = true →
      Registry.resolve? family l.table l.column = some field →
      l.operator.supports field.kind = false →
      Offends family source l
        (.unsupportedOperator (fieldName l.table l.column) l.operator field.kind)
  | misfit {field : Field} {expected : String} {actual : Scalar} :
      source.provides.contains l.table = true →
      Registry.resolve? family l.table l.column = some field →
      l.operator.supports field.kind = true →
      l.operator.Misfit field.kind l.value expected actual →
      Offends family source l
        (.typeMismatch (fieldName l.table l.column) expected actual.typeName)

namespace Leaf

variable {family : Family} {source : Source} {l : Leaf} {e : FilterError}

theorem check_eq_error (h : l.field family source = .error e) :
    l.check family source = .error e := by
  rw [check, h]
  rfl

theorem check_eq_test {field : Field} (h : l.field family source = .ok field) :
    l.check family source =
      if l.operator.supports field.kind then
        (l.operator.test (fieldName l.table l.column) field.kind l.value).map (.test field)
      else .error (.unsupportedOperator (fieldName l.table l.column) l.operator field.kind) := by
  rw [check, h]
  change (if l.operator.supports field.kind then _ else _) = _
  split
  · cases l.operator.test (fieldName l.table l.column) field.kind l.value <;> rfl
  · rfl

theorem field_ok_iff {field : Field} :
    l.field family source = .ok field ↔
      source.provides.contains l.table = true ∧
        Registry.resolve? family l.table l.column = some field := by
  refine ⟨provides_of_field, ?_⟩
  rintro ⟨hprovides, hresolve⟩
  rw [Leaf.field, if_pos hprovides, hresolve]

theorem offends_of_field (h : l.field family source = .error e) :
    l.Offends family source e := by
  rw [Leaf.field] at h
  split at h
  · next hprovides =>
      split at h
      · cases h
      · next hresolve =>
          cases h
          exact .unknown hprovides hresolve
  · next hprovides =>
      cases h
      exact .notProvided (Bool.eq_false_iff.2 hprovides)

theorem exists_check_iff :
    (∃ c, l.check family source = .ok c) ↔ l.WellTyped family source := by
  constructor
  · rintro ⟨c, hc⟩
    obtain ⟨field, hfield, -⟩ := ok_of_bind hc
    obtain ⟨hprovides, hresolve⟩ := field_ok_iff.1 hfield
    rw [check_eq_test hfield] at hc
    split at hc
    · next hsupports =>
        obtain ⟨t, ht, -⟩ := ok_of_map hc
        exact ⟨hprovides, field, hresolve, hsupports, Operator.exists_test_iff.1 ⟨t, ht⟩⟩
    · cases hc
  · rintro ⟨hprovides, field, hresolve, hsupports, hadmits⟩
    obtain ⟨t, ht⟩ := Operator.exists_test_iff.2 hadmits
    refine ⟨.test field t, ?_⟩
    rw [check_eq_test (field_ok_iff.2 ⟨hprovides, hresolve⟩), if_pos hsupports, ht]
    rfl

theorem check_error_iff :
    l.check family source = .error e ↔ l.Offends family source e := by
  constructor
  · intro h
    cases hfield : l.field family source with
    | error e' =>
        rw [check_eq_error hfield] at h
        cases h
        exact offends_of_field hfield
    | ok field =>
        obtain ⟨hprovides, hresolve⟩ := field_ok_iff.1 hfield
        rw [check_eq_test hfield] at h
        split at h
        · next hsupports =>
            obtain ⟨expected, actual, hmisfit, rfl⟩ :=
              Operator.test_error_iff.1 (map_error_iff.1 h)
            exact .misfit hprovides hresolve hsupports hmisfit
        · next hsupports =>
            cases h
            exact .unsupported hprovides hresolve (Bool.eq_false_iff.2 hsupports)
  · intro h
    cases h with
    | notProvided hprovides =>
        refine check_eq_error ?_
        rw [Leaf.field, hprovides]
        rfl
    | unknown hprovides hresolve =>
        refine check_eq_error ?_
        rw [Leaf.field, if_pos hprovides, hresolve]
        rfl
    | unsupported hprovides hresolve hsupports =>
        rw [check_eq_test (field_ok_iff.2 ⟨hprovides, hresolve⟩), hsupports]
        rfl
    | misfit hprovides hresolve hsupports hmisfit =>
        rw [check_eq_test (field_ok_iff.2 ⟨hprovides, hresolve⟩), if_pos hsupports]
        exact map_error_iff.2 (Operator.test_error_iff.2 ⟨_, _, hmisfit, rfl⟩)

end Leaf

/-! ## Trees -/

namespace Filter

variable {family : Family} {source : Source} {f : Filter} {e : FilterError}

/-- Checking a tree goes well or fails as checking its leaves one after another does. -/
theorem check_leaves (family : Family) (source : Source) (f : Filter) :
    (f.check family source).map (fun _ => ()) =
      (f.leaves.mapM (Leaf.check family source)).map fun _ => () := by
  induction f with
  | all => rfl
  | leaf l =>
      rw [check, FilterOf.leaves, List.mapM_cons, List.mapM_nil]
      cases Leaf.check family source l <;> rfl
  | branch left right op ihl ihr =>
      rw [check, FilterOf.leaves, List.mapM_append]
      cases hl : check family source left with
      | error e =>
          rw [hl] at ihl
          rw [map_error_iff.1 ihl.symm]
          rfl
      | ok cl =>
          rw [hl] at ihl
          obtain ⟨ls, hls⟩ := exists_ok_map_iff.1 ⟨(), ihl.symm⟩
          rw [hls]
          cases hr : check family source right with
          | error e =>
              rw [hr] at ihr
              rw [map_error_iff.1 ihr.symm]
              rfl
          | ok cr =>
              rw [hr] at ihr
              obtain ⟨rs, hrs⟩ := exists_ok_map_iff.1 ⟨(), ihr.symm⟩
              rw [hrs]
              rfl

theorem exists_check_iff :
    (∃ c, f.check family source = .ok c) ↔ ∀ l ∈ f.leaves, Leaf.WellTyped family source l := by
  rw [← exists_ok_map_iff (f := fun _ => ()), check_leaves, exists_ok_map_iff,
    exists_ok_mapM_iff]
  exact forall₂_congr fun l _ => Leaf.exists_check_iff

theorem check_error_iff :
    f.check family source = .error e ↔
      ∃ before l after, f.leaves = before ++ l :: after ∧
        (∀ l' ∈ before, Leaf.WellTyped family source l') ∧ Leaf.Offends family source l e := by
  rw [← map_error_iff (f := fun _ => ()), check_leaves, map_error_iff, mapM_error_iff]
  simp only [Leaf.exists_check_iff, Leaf.check_error_iff]

end Filter

/-! ## Scoped filters -/

namespace ScopedFilter

variable {s : ScopedFilter} {family : Family} {e : FilterError}

theorem exists_check_iff :
    (∃ c, s.check family = .ok c) ↔
      ∃ source, Registry.source? family s.source = some source ∧
        ∀ l ∈ s.tree.leaves, Leaf.WellTyped family source l := by
  rw [check, relation]
  cases hsource : Registry.source? family s.source with
  | none => simp [unknownField, bind, Except.bind]
  | some source =>
      simp only [Option.some.injEq, exists_eq_left']
      exact Filter.exists_check_iff

theorem check_error_iff :
    s.check family = .error e ↔
      (Registry.source? family s.source = none ∧
        e = .unknownField family s.source .organizationId) ∨
      ∃ source, Registry.source? family s.source = some source ∧
        ∃ before l after, s.tree.leaves = before ++ l :: after ∧
          (∀ l' ∈ before, Leaf.WellTyped family source l') ∧ Leaf.Offends family source l e := by
  rw [check, relation]
  cases hsource : Registry.source? family s.source with
  | none => simp [unknownField, bind, Except.bind, eq_comm]
  | some source =>
      simp only [Option.some.injEq, exists_eq_left', reduceCtorEq, false_and, false_or]
      exact Filter.check_error_iff

end ScopedFilter

/-! ## Compiling -/

namespace Backend

/-- What a filter is refused for: parameters of another backend, a source that is not
stored, or else the offence of the first bad leaf. -/
inductive Refuses (b : Backend) (p : Params) (s : ScopedFilter) : FilterError → Prop
  | foreign : p.backend ≠ b → Refuses b p s (.invalidShape
      s!"parameters were collected for {p.backend.name}, compiler targets {b.name}")
  | notStored : p.backend = b → Registry.source? b.family s.source = none →
      Refuses b p s (.unknownField b.family s.source .organizationId)
  | leaf {source : Source} {before after : List Leaf} {l : Leaf} {e : FilterError} :
      p.backend = b → Registry.source? b.family s.source = some source →
      s.tree.leaves = before ++ l :: after →
      (∀ l' ∈ before, Leaf.WellTyped b.family source l') → Leaf.Offends b.family source l e →
      Refuses b p s e

theorem fst_addCondition {b : Backend} {p : Params} {s : ScopedFilter} (hp : p.backend = b) :
    (b.addCondition s p).1 =
      (s.check b.family).map fun c => b.textOf (c.expr b p.size) := by
  cases h : s.check b.family with
  | error e => rw [addCondition_error hp h]; rfl
  | ok c => rw [addCondition_ok hp h]; rfl

/-- A filter is accepted exactly if the parameters are of its backend, its source is
stored, and every leaf is well typed; and it is refused exactly for its first offence. -/
theorem addCondition_accepts (b : Backend) (s : ScopedFilter) (p : Params) :
    ((∃ text, (b.addCondition s p).1 = .ok text) ↔
      p.backend = b ∧ ∃ source, Registry.source? b.family s.source = some source ∧
        ∀ l ∈ s.tree.leaves, Leaf.WellTyped b.family source l) ∧
    ∀ e, (b.addCondition s p).1 = .error e ↔ b.Refuses p s e := by
  by_cases hp : p.backend = b
  · rw [fst_addCondition hp]
    refine ⟨?_, fun e => ?_⟩
    · rw [exists_ok_map_iff, ScopedFilter.exists_check_iff, and_iff_right hp]
    · rw [map_error_iff, ScopedFilter.check_error_iff]
      constructor
      · rintro (⟨hsource, rfl⟩ | ⟨source, hsource, before, l, after, hleaves, hbefore, hl⟩)
        · exact .notStored hp hsource
        · exact .leaf hp hsource hleaves hbefore hl
      · intro h
        cases h with
        | foreign hne => exact absurd hp hne
        | notStored _ hsource => exact .inl ⟨hsource, rfl⟩
        | leaf _ hsource hleaves hbefore hl =>
            exact .inr ⟨_, hsource, _, _, _, hleaves, hbefore, hl⟩
  · rw [addCondition_mismatch hp]
    refine ⟨by simp [hp], fun e => ?_⟩
    constructor
    · intro h
      cases h
      exact .foreign hp
    · intro h
      cases h with
      | foreign => rfl
      | notStored hp' | leaf hp' => exact absurd hp' hp

/-- A filter that is refused leaves the parameters as they were. One that is accepted adds
its values behind them, from left to right and each as the backend is given it. -/
theorem addCondition_params (b : Backend) (s : ScopedFilter) (p : Params) :
    (b.addCondition s p).2 =
      match (b.addCondition s p).1 with
      | .ok _ => p.extend (s.tree.values.map b.passed)
      | .error _ => p := by
  by_cases hp : p.backend = b
  · cases h : s.check b.family with
    | error e => rw [addCondition_error hp h]
    | ok c =>
        obtain ⟨source, -, hchecks⟩ := ScopedFilter.checks_of_check h
        rw [addCondition_ok hp h, hchecks.encode_operands]
  · rw [addCondition_mismatch hp]

end Backend

end RequestLog
