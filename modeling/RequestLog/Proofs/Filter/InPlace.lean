import RequestLog.Proofs.Filter.Legible
import RequestLog.Proofs.Sql.Placeholder

/-!
# Operands in the places of their arguments

Which argument was bound for which operand shows when the arguments are written as
the values they stand for: then the text of a condition is what it would be with
every operand written where its own leaf has it.
-/

namespace RequestLog

open Sql

variable {b : Backend}

/-- An operand, written out beside a column of some kind. -/
def Backend.literal (b : Backend) (render : Scalar → String) (kind : Kind)
    (v : Scalar) : Expr :=
  b.beside kind (.verbatim (render (b.encode v)))

def Test.inlined (b : Backend) (render : Scalar → String) (field : Field) : Test → Expr
  | .isNull negated => .isNull (.column field.column) negated
  | .compare op v => .compare op (.column field.column) (b.literal render field.kind v)
  | .like v => .like (.column field.column) (b.literal render field.kind v)
  | .contains v => b.contains (.column field.column) (b.literal render field.kind v)
  | .oneOf [] => .truth false
  | .oneOf vs => .oneOf (.column field.column) (vs.map (b.literal render field.kind))

def Condition.inlined (b : Backend) (render : Scalar → String) : Condition → Expr
  | .always => .truth true
  | .test field t => t.inlined b render field
  | .junction op left right =>
      .junction op (left.inlined b render) (right.inlined b render)

theorem Backend.text_beside (kind : Kind) {g g' : Nat → String} {e e' : Expr}
    (h : e.text g = e'.text g') :
    (b.beside kind e).text g = (b.beside kind e').text g' := by
  rw [beside, beside]
  split
  · cases b <;> simp [instant, Expr.text, Expr.texts, h]
  · exact h

theorem Backend.text_contains {g g' : Nat → String} {c : ColumnRef} {e e' : Expr}
    (h : e.text g = e'.text g') :
    (b.contains (.column c) e).text g = (b.contains (.column c) e').text g' := by
  cases b <;> simp [contains, place, Expr.text, Expr.texts, h]

theorem Backend.text_bound {render : Scalar → String} {g : Nat → String} {kind : Kind}
    {v : Scalar} {args : List Scalar} {i : Nat} (h : args[i]? = some (b.encode v)) :
    (b.bound kind (i + 1)).text (inPlace args render) =
      (b.literal render kind v).text g := by
  rw [bound, literal]
  refine text_beside kind ?_
  rw [Expr.text, Expr.text, inPlace_succ h]

theorem Backend.texts_bound (render : Scalar → String) (g : Nat → String) (kind : Kind)
    (vs before after : List Scalar) :
    Expr.texts (inPlace (before ++ vs.map b.encode ++ after) render)
        ((List.range' (before.length + 1) vs.length).map (b.bound kind)) =
      Expr.texts g (vs.map (b.literal render kind)) := by
  induction vs generalizing before with
  | nil => rfl
  | cons v rest ih =>
      have hrest := ih (before ++ [b.encode v])
      rw [List.length_append, List.append_assoc before] at hrest
      rw [List.length_cons, List.range'_succ, List.map_cons, List.map_cons, List.map_cons,
        Expr.texts, Expr.texts]
      exact congrArg₂ List.cons (text_bound (by simp)) hrest

theorem Test.text_inlined (field : Field) (t : Test) (render : Scalar → String)
    (g : Nat → String) (before after : List Scalar) :
    (t.expr b field before.length).text
        (inPlace (before ++ t.operands.map b.encode ++ after) render) =
      (t.inlined b render field).text g := by
  cases t with
  | isNull negated => rfl
  | compare op v =>
      rw [expr, inlined, Expr.text, Expr.text,
        Backend.text_bound (v := v) (g := g) (by simp [operands])]
      rfl
  | like v =>
      rw [expr, inlined, Expr.text, Expr.text,
        Backend.text_bound (v := v) (g := g) (by simp [operands])]
      rfl
  | contains v => exact Backend.text_contains (Backend.text_bound (by simp [operands]))
  | oneOf vs =>
      cases vs with
      | nil => rfl
      | cons v rest =>
          have hall := Backend.texts_bound (b := b) render g field.kind (v :: rest) before
            after
          rw [expr, inlined, Expr.text, Expr.text, operands, hall]
          · rfl
          · exact List.cons_ne_nil v rest

/-- The values that were bound behind `before` stand where their leaves want them. -/
theorem Condition.text_inlined (c : Condition) (render : Scalar → String)
    (g : Nat → String) (before after : List Scalar) :
    (c.expr b before.length).text
        (inPlace (before ++ c.operands.map b.encode ++ after) render) =
      (c.inlined b render).text g := by
  induction c generalizing before after with
  | always => rfl
  | test field t => exact t.text_inlined field render g before after
  | junction op left right ihl ihr =>
      have hl := ihl before (right.operands.map b.encode ++ after)
      have hr := ihr (before ++ left.operands.map b.encode) after
      rw [List.length_append, List.length_map] at hr
      simp only [operands, List.map_append, List.append_assoc] at hl hr ⊢
      rw [expr, inlined, Expr.text, Expr.text, hl, hr]

end RequestLog
