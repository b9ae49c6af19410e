import RequestLog.Field.Registry
import RequestLog.Proofs.Sql.Name

/-!
# What the registry promises

Whatever column the registry gives is written as a plain name and has the kind of
its logical column, and a source provides the columns of its own table.
-/

namespace RequestLog.Registry

open Sql

variable {family : Family} {t : Table} {c : Column}

theorem plain_of_resolve {f : Field} (h : resolve? family t c = some f) :
    f.column.plain = true := by
  cases family <;> cases t <;> cases c <;> cases h <;> decide +kernel

theorem kind_of_resolve {f : Field} (h : resolve? family t c = some f) :
    f.kind = c.kind := by
  cases family <;> cases t <;> cases c <;> cases h <;> rfl

theorem provides_own {source : Source} (h : source? family t = some source) :
    source.provides.contains t = true := by
  cases family <;> cases t <;> cases h <;> rfl

end RequestLog.Registry
