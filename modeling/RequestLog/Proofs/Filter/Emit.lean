import RequestLog.Proofs.Filter.Check
import RequestLog.Proofs.Sql.Parts

/-!
# What emitting a filter does to the parameters

Emitting threads the parameters through the tree, but it neither looks at the
values that were bound before nor at those it binds. So it comes apart. What can
fail was said by the check; the expression depends on the backend, on how many
arguments there are already, and on the shape of the condition (`Condition.expr`);
and the values are the operands of the leaves from left to right, each in the form
that the backend is given (`Condition.operands`). `Filter.emit_follows` says that
nothing else happens, and that an emission that fails has at most added values.
-/

namespace RequestLog

open Sql

/-- An operand as it stands beside a column of some kind. -/
def Backend.beside (b : Backend) (kind : Kind) (e : Expr) : Expr :=
  if kind = .timestamp then b.instant e else e

def Backend.bound (b : Backend) (kind : Kind) (i : Nat) : Expr :=
  b.beside kind (.argument i)

def Params.extend (p : Params) (vs : List Scalar) : Params :=
  ⟨p.backend, p.values ++ vs.toArray⟩

namespace Params

theorem extend_nil (p : Params) : p.extend [] = p := by
  simp [extend]

theorem extend_extend (p : Params) (vs ws : List Scalar) :
    (p.extend vs).extend ws = p.extend (vs ++ ws) := by
  simp [extend]

theorem push_eq (p : Params) (v : Scalar) :
    p.push v = (.argument (p.size + 1), p.extend [v]) := by
  simp [push, extend, size]

@[simp] theorem extend_backend (p : Params) (vs : List Scalar) :
    (p.extend vs).backend = p.backend := rfl

@[simp] theorem extend_size (p : Params) (vs : List Scalar) :
    (p.extend vs).size = p.size + vs.length := by
  simp [extend, size]

@[simp] theorem extend_toList (p : Params) (vs : List Scalar) :
    (p.extend vs).values.toList = p.values.toList ++ vs := by
  simp [extend]

/-- What was bound behind a place is taken back there. -/
theorem truncate_extend (p : Params) (vs : List Scalar) :
    (p.extend vs).truncate p.size = p := by
  simp [truncate, extend, size]

theorem bind_eq (p : Params) (kind : Kind) (v : Scalar) :
    p.bind kind v =
      (p.backend.bound kind (p.size + 1), p.extend [p.backend.encode v]) := by
  rw [bind, push_eq]
  rfl

end Params

/-! ## Operands and expressions -/

def Test.operands : Test → List Scalar
  | .isNull _ => []
  | .compare _ v | .like v | .contains v => [v]
  | .oneOf vs => vs

def Condition.operands : Condition → List Scalar
  | .always => []
  | .test _ t => t.operands
  | .junction _ left right => left.operands ++ right.operands

/-- A test behind the first `n` arguments. -/
def Test.expr (b : Backend) (field : Field) (n : Nat) : Test → Expr
  | .isNull negated => .isNull (.column field.column) negated
  | .compare op _ => .compare op (.column field.column) (b.bound field.kind (n + 1))
  | .like _ => .like (.column field.column) (b.bound field.kind (n + 1))
  | .contains _ => b.contains (.column field.column) (b.bound field.kind (n + 1))
  | .oneOf [] => .truth false
  | .oneOf (v :: vs) =>
      .oneOf (.column field.column)
        ((List.range' (n + 1) (v :: vs).length).map (b.bound field.kind))

/-- A condition behind the first `n` arguments. -/
def Condition.expr (b : Backend) (n : Nat) : Condition → Expr
  | .always => .truth true
  | .test field t => t.expr b field n
  | .junction op left right =>
      .junction op (left.expr b n) (right.expr b (n + left.operands.length))

/-! ## Binding -/

namespace Binding

variable {α β : Type} {x : Binding α} {p q : Params}

/-- Binding as it was foreseen: the value and what is bound with it, or a failure,
before which anything may have been bound. -/
def Follows (x : Binding α) (p : Params) :
    Except FilterError (α × List Scalar) → Prop
  | .ok (a, vs) => x p = (.ok a, p.extend vs)
  | .error e => ∃ vs, x p = (.error e, p.extend vs)

theorem bind_ok {f : α → Binding β} {a : α} (h : x p = (.ok a, q)) :
    (x >>= f) p = f a q := by
  have hbind : (x >>= f) p =
      (ExceptT.bindCont f (x p).1 : StateM Params (Except FilterError β)) (x p).2 := rfl
  rw [hbind, h]
  rfl

theorem bind_error {f : α → Binding β} {e : FilterError} (h : x p = (.error e, q)) :
    (x >>= f) p = (.error e, q) := by
  have hbind : (x >>= f) p =
      (ExceptT.bindCont f (x p).1 : StateM Params (Except FilterError β)) (x p).2 := rfl
  rw [hbind, h]
  rfl

theorem Follows.bind {f : α → Binding β} {r : Except FilterError (α × List Scalar)}
    {s : α → List Scalar → Except FilterError (β × List Scalar)} (hx : Follows x p r)
    (hf : ∀ a vs, Follows (f a) (p.extend vs) (s a vs)) :
    Follows (x >>= f) p
      (r.bind fun (a, vs) => (s a vs).map fun (b, ws) => (b, vs ++ ws)) := by
  cases r with
  | error e =>
      obtain ⟨vs, hvs⟩ := hx
      exact ⟨vs, bind_error hvs⟩
  | ok out =>
      obtain ⟨a, vs⟩ := out
      have hrun : x p = (.ok a, p.extend vs) := hx
      have hout := hf a vs
      change Follows (x >>= f) p ((s a vs).map fun (b, ws) => (b, vs ++ ws))
      cases hs : s a vs with
      | error e =>
          rw [hs] at hout
          obtain ⟨ws, hws⟩ := hout
          exact ⟨vs ++ ws, by rw [bind_ok hrun, hws, Params.extend_extend]⟩
      | ok last =>
          rw [hs] at hout
          have hrun' : f a (p.extend vs) = (.ok last.1, _) := hout
          refine (bind_ok hrun).trans (hrun'.trans ?_)
          rw [Params.extend_extend]

/-- Work that fails nowhere and binds nothing, behind other work. -/
theorem Follows.then {f : α → Binding β} {r : Except FilterError (α × List Scalar)}
    {g : α → β} (hx : Follows x p r)
    (hf : ∀ a q, q.backend = p.backend → f a q = (.ok (g a), q)) :
    Follows (x >>= f) p (r.map fun (a, vs) => (g a, vs)) := by
  cases r with
  | error e =>
      obtain ⟨vs, hvs⟩ := hx
      exact ⟨vs, bind_error hvs⟩
  | ok out =>
      have hrun : x p = (.ok out.1, p.extend out.2) := hx
      exact (bind_ok hrun).trans (hf out.1 _ rfl)

theorem follows_throw (e : FilterError) : Follows (throw e : Binding α) p (.error e) :=
  ⟨[], by rw [Params.extend_nil]; rfl⟩

theorem follows_pure (a : α) : Follows (pure a : Binding α) p (.ok (a, [])) :=
  congrArg (Prod.mk _) p.extend_nil.symm

end Binding

open Binding

theorem Kind.bind_follows (kind : Kind) (name : String) (v : Scalar) (p : Params) :
    Follows (kind.bind name v) p ((kind.operand name v).map fun w =>
      (p.backend.bound kind (p.size + 1), [p.backend.encode w])) := by
  rw [Kind.bind]
  cases kind.operand name v with
  | error e => exact follows_throw e
  | ok w => exact congrArg (fun out => (Except.ok out.1, out.2)) (p.bind_eq kind w)

theorem Kind.bindAll_follows (kind : Kind) (name : String) (items : List Scalar)
    (p : Params) :
    Follows (items.mapM (kind.bind name)) p
      ((items.mapM (kind.operand name)).map fun vs =>
        ((List.range' (p.size + 1) vs.length).map (p.backend.bound kind),
          vs.map p.backend.encode)) := by
  induction items generalizing p with
  | nil => exact follows_pure []
  | cons v rest ih =>
      have hall := (kind.bind_follows name v p).bind fun e ws =>
        (ih (p.extend ws)).then (g := fun es => e :: es) fun _ _ _ => rfl
      rw [List.mapM_cons, List.mapM_cons]
      refine cast (congrArg _ ?_) hall
      cases kind.operand name v with
      | error e => rfl
      | ok w =>
          cases rest.mapM (kind.operand name) with
          | error e => rfl
          | ok ws =>
              have hok : (do
                  let w ← Except.ok w
                  let ws ← Except.ok ws
                  pure (w :: ws) : Except FilterError (List Scalar)) = .ok (w :: ws) := rfl
              rw [hok]
              simp [Except.map, Except.bind, List.range'_succ]

theorem Operator.single_follows {name : String} {field : Field} {v : Scalar}
    {p : Params} {f : Expr → Binding Expr} {mk : Scalar → Test}
    (hmk : ∀ w, (mk w).operands = [w])
    (hf : ∀ w q, q.backend = p.backend →
      f (p.backend.bound field.kind (p.size + 1)) q =
        (.ok ((mk w).expr p.backend field p.size), q)) :
    Follows (field.kind.bind name v >>= f) p
      (((field.kind.operand name v).map mk).map fun t =>
        (t.expr p.backend field p.size, t.operands.map p.backend.encode)) := by
  have hv := field.kind.bind_follows name v p
  cases hoperand : field.kind.operand name v with
  | error e =>
      rw [hoperand] at hv
      obtain ⟨vs, hvs⟩ := hv
      exact ⟨vs, bind_error hvs⟩
  | ok w =>
      rw [hoperand] at hv
      have hrun : field.kind.bind name v p = _ := hv
      have hlast := hf w (p.extend [p.backend.encode w]) rfl
      refine (bind_ok hrun).trans (hlast.trans ?_)
      rw [hmk]
      rfl

theorem Operator.nullTest_follows {name : String} {field : Field} {v : Scalar}
    {p : Params} {negated : Bool} :
    Follows (emit.nullTest name v (.column field.column) negated) p
      ((test.nullTest name v negated).map fun t =>
        (t.expr p.backend field p.size, t.operands.map p.backend.encode)) := by
  rw [emit.nullTest, test.nullTest]
  split
  · exact follows_pure _
  · exact follows_throw _

theorem Operator.emit_follows (op : Operator) (name : String) (field : Field)
    (v : Scalar) (p : Params) :
    Follows (op.emit name field v) p ((op.test name field.kind v).map fun t =>
      (t.expr p.backend field p.size, t.operands.map p.backend.encode)) := by
  cases op with
  | isNull | isNotNull => exact nullTest_follows
  | «in» =>
      cases v with
      | list items =>
          cases items with
          | nil => exact follows_pure _
          | cons v rest =>
              have hall := (field.kind.bindAll_follows name (v :: rest) p).then
                (g := Expr.oneOf (.column field.column)) fun _ _ _ => rfl
              refine cast (congrArg _ ?_) hall
              cases hvs : (v :: rest).mapM (field.kind.operand name) with
              | error e => simp only [Operator.test, hvs]; rfl
              | ok vs =>
                  simp only [Operator.test, hvs]
                  cases Kind.takes_of_operands hvs
                  rfl
      | null | bool | int | float | text | timestamp => exact follows_throw _
  | contains => exact single_follows (fun _ => rfl) fun _ _ hq => by rw [← hq]; rfl
  | like | equals | notEquals | greaterThan | lessThan | greaterOrEqual
  | lessOrEqual => exact single_follows (fun _ => rfl) fun _ _ _ => rfl

theorem Leaf.emit_follows (family : Family) (source : Source) (l : Leaf) (p : Params) :
    Follows (Leaf.emit family source l) p ((Leaf.check family source l).map fun c =>
      (c.expr p.backend p.size, c.operands.map p.backend.encode)) := by
  rw [Leaf.emit, Leaf.check]
  cases Leaf.field family source l with
  | error e => exact follows_throw e
  | ok field =>
      change Follows (if l.operator.supports field.kind then _ else _) p
        (Except.map _ (if l.operator.supports field.kind then _ else _))
      split
      · refine cast (congrArg _ ?_) (l.operator.emit_follows _ field l.value p)
        cases l.operator.test (fieldName l.table l.column) field.kind l.value <;> rfl
      · exact follows_throw _

/-- Emitting a filter fails as its check does, and else gives the condition's own
expression and binds the condition's own operands. -/
theorem Filter.emit_follows (family : Family) (source : Source) (f : Filter)
    (p : Params) :
    Follows (f.emit family source) p ((f.check family source).map fun c =>
      (c.expr p.backend p.size, c.operands.map p.backend.encode)) := by
  induction f generalizing p with
  | all => exact follows_pure _
  | leaf l => exact Leaf.emit_follows family source l p
  | branch left right op ihl ihr =>
      have hall := (ihl p).bind fun el vs =>
        (ihr (p.extend vs)).then (g := Expr.junction op.junction el) fun _ _ _ => rfl
      rw [emit, check]
      refine cast (congrArg _ ?_) hall
      cases Filter.check family source left with
      | error e => rfl
      | ok cl =>
          cases Filter.check family source right with
          | error e => rfl
          | ok cr =>
              have hok : (do
                  let cl ← Except.ok cl
                  let cr ← Except.ok cr
                  return .junction op.junction cl cr : Except FilterError Condition) =
                    .ok (.junction op.junction cl cr) := rfl
              rw [hok]
              simp [Except.map, Except.bind, Condition.expr, Condition.operands]

/-! ## The arguments of an expression are those that were bound -/

section

attribute [local simp] Expr.arguments Expr.argumentLists

theorem Backend.arguments_instant (b : Backend) (e : Expr) :
    (b.instant e).arguments = e.arguments := by
  cases b <;> simp [instant]

theorem Backend.arguments_contains (b : Backend) (l r : Expr) :
    (b.contains l r).arguments = l.arguments ++ r.arguments := by
  cases b <;> simp [contains, place]

theorem Backend.arguments_bound (b : Backend) (kind : Kind) (i : Nat) :
    (b.bound kind i).arguments = [i] := by
  rw [bound, beside]
  split
  · rw [arguments_instant, Expr.arguments]
  · rw [Expr.arguments]

theorem Test.arguments_expr (b : Backend) (field : Field) (n : Nat) (t : Test) :
    (t.expr b field n).arguments = List.range' (n + 1) t.operands.length := by
  cases t with
  | isNull | compare | like =>
      simp [expr, operands, Backend.arguments_bound]
  | contains =>
      simp [expr, operands, Backend.arguments_contains, Backend.arguments_bound]
  | oneOf vs =>
      cases vs with
      | nil => rfl
      | cons v rest =>
          have hbound : Expr.arguments ∘ b.bound field.kind = fun i => [i] :=
            funext fun i => b.arguments_bound field.kind i
          rw [expr, Expr.arguments, Expr.argumentLists_eq_map, List.map_map, hbound]
          simp [operands, ← List.flatMap_def]

/-- The arguments of a condition are numbered in the order of its text. -/
theorem Condition.arguments_expr (b : Backend) (n : Nat) (c : Condition) :
    (c.expr b n).arguments = List.range' (n + 1) c.operands.length := by
  induction c generalizing n with
  | always => rfl
  | test field t => exact t.arguments_expr b field n
  | junction op left right ihl ihr =>
      rw [expr, Expr.arguments, ihl, ihr, operands, List.length_append,
        List.range'_append_1.symm]
      congr 2
      omega

end

end RequestLog
