import RequestLog.Proofs.Field.Registry
import RequestLog.Proofs.Filter.Compile
import RequestLog.Proofs.Sql.Legible

/-!
# Compiled filters can be read

A checked filter holds columns of the registry and nothing else that a name could
stand for, and the dialects put their calls around arguments. So the expression of
every compiled filter is legible, whatever the backend.
-/

namespace RequestLog

open Sql

variable {b : Backend} {n : Nat}

theorem Backend.legible_bound (b : Backend) (kind : Kind) (i : Nat) :
    Legible n (b.bound kind i) := by
  rw [bound, beside]
  split
  · cases b with
    | sqlite | postgres => exact .argument i
    | duckdb => exact .call (by decide) (by decide) (by simpa using .argument i)
    | clickhouse =>
        have hinner : Legible 0 (.call "toInt64" [.argument i]) :=
          .call (by decide) (by decide) (by simpa using .argument i)
        exact .call (by decide) (by decide) (by simpa using hinner)
  · exact .argument i

theorem Backend.legible_contains (b : Backend) {l r : Expr} (hn : n ≤ testLevel)
    (hl : Legible 0 l) (hr : Legible 0 r) : Legible n (b.contains l r) := by
  have hargs : ∀ x ∈ [l, r], Legible 0 x := by simp [hl, hr]
  refine .compare hn ?_ (.natural (k := 0) (by decide))
  cases b <;> exact .call (by decide) (by decide) hargs

theorem Test.legible {field : Field} {t : Test} (h : field.column.plain = true) :
    Legible 0 (t.expr b field n) := by
  have hbound := fun n i => b.legible_bound (n := n) field.kind i
  cases t with
  | isNull negated => exact .isNull (by decide) (.column h)
  | compare op v => exact .compare (by decide) (.column h) (hbound _ _)
  | like v => exact .like (by decide) (.column h) (hbound _ _)
  | contains v => exact b.legible_contains (by decide) (.column h) (hbound _ _)
  | oneOf vs =>
      cases vs with
      | nil => exact .truth false
      | cons v rest =>
          rw [expr, List.length_cons, List.range'_succ, List.map_cons]
          refine .oneOf (by decide) (.column h) fun x hx => ?_
          rw [← List.map_cons] at hx
          obtain ⟨i, -, rfl⟩ := List.mem_map.1 hx
          exact hbound 0 i

theorem Filter.Checks.legible {family : Family} {source : Source} {f : Filter}
    {c : Condition} (h : f.Checks family source c) : Legible 0 (c.expr b n) := by
  induction h generalizing n with
  | all => exact .truth true
  | leaf _ hresolve _ _ => exact Test.legible (Registry.plain_of_resolve hresolve)
  | branch op _ _ ihl ihr => exact .junction (Nat.zero_le _) ihl ihr

end RequestLog
