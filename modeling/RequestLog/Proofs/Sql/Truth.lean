import RequestLog.Field.Name
import RequestLog.Relational.Evaluate
import RequestLog.Sql.Dialect

/-!
# What a condition says about a row

The usual meaning of the conditions that are written here, in a row whose columns
hold data or nothing at all. Nothing, NULL, makes every comparison and every call
unknown; junctions are those of three-valued logic. Each backend has the functions
that its dialect uses. Instants are compared by their microseconds, the precision
that all stores keep. `LIKE` is left to the store.

An expression outside of this fragment, or one that mixes data that cannot be
compared, has no meaning: `Expr.truth?` is `none` there. Unknown is a meaning, so
the two layers of `Option` are kept apart.
-/

namespace RequestLog

inductive Datum where
  | bool (b : Bool)
  | int (i : Int)
  | float (x : Float)
  | text (s : String)
  | instant (t : Instant)

namespace Datum

def kind : Datum → Kind
  | .bool _ => .bool
  | .int _ => .int
  | .float _ => .float
  | .text _ => .text
  | .instant _ => .timestamp

/-- The instant that lies some microseconds after the beginning of 1970. -/
def ofMicros (m : Int) : Datum :=
  .instant ⟨m / 1000000, (m % 1000000).toNat * 1000⟩

end Datum

/-- True, false, or unknown. -/
abbrev Truth := Option Bool

/-! ## Comparisons -/

def Sql.Comparison.holds {α : Type} [BEq α] [LT α] [LE α] [DecidableLT α]
    [DecidableLE α] (op : Sql.Comparison) (a b : α) : Bool :=
  match op with
  | .eq => a == b
  | .ne => a != b
  | .gt => b < a
  | .lt => a < b
  | .ge => b ≤ a
  | .le => a ≤ b

namespace Datum

def compare? (op : Sql.Comparison) : Datum → Datum → Option Bool
  | .bool a, .bool b => some (op.holds a b)
  | .int a, .int b => some (op.holds a b)
  | .float a, .float b => some (op.holds a b)
  | .text a, .text b => some (op.holds a b)
  | .instant a, .instant b => some (op.holds a.micros b.micros)
  | _, _ => none

def compareTruth? (op : Sql.Comparison) : Option Datum → Option Datum → Option Truth
  | some a, some b => (compare? op a b).map some
  | _, _ => some none

/-- Whether a value is among others, unknown when that depends on an absent one. -/
def amongTruth? (v : Option Datum) : List (Option Datum) → Option Truth
  | [] => some (some false)
  | w :: rest => do
      let t ← compareTruth? .eq v w
      let u ← amongTruth? v rest
      return Relational.orTruth t u

/-- One-based place of a text in another, zero when it does not occur. -/
def place? : List Datum → Option Datum
  | [.text s, .text needle] =>
      some (.int ((Text.position? needle.toList s.toList).getD 0 : Nat))
  | _ => none

def instant? : List Datum → Option Datum
  | [.int m] => some (ofMicros m)
  | _ => none

def int? : List Datum → Option Datum
  | [.int i] => some (.int i)
  | _ => none

end Datum

/-! ## Expressions -/

/-- The functions of a backend, as far as filters use them. -/
def Backend.function? (b : Backend) (name : String) :
    Option (List Datum → Option Datum) :=
  match b, name with
  | .sqlite, "instr" | .postgres, "strpos" | .duckdb, "strpos"
  | .clickhouse, "position" => some Datum.place?
  | .duckdb, "make_timestamp"
  | .clickhouse, "fromUnixTimestamp64Micro" => some Datum.instant?
  | .clickhouse, "toInt64" => some Datum.int?
  | _, _ => none

/-- A function of values, one of which may be absent. -/
def Backend.callValue? (b : Backend) (name : String) (vs : List (Option Datum)) :
    Option (Option Datum) := do
  let f ← b.function? name
  match vs.mapM id with
  | some ds => (f ds).map some
  | none => return none

/-- The value of an argument; a list is none. -/
def Scalar.datum? : Scalar → Option (Option Datum)
  | .null => some none
  | .bool b => some (some (.bool b))
  | .int i => some (some (.int i))
  | .float x => some (some (.float x))
  | .text s => some (some (.text s))
  | .timestamp t => some (some (.instant t))
  | .list _ => none

namespace Sql

/-- What a condition is about: a backend's row, with arguments. -/
structure Setting where
  backend : Backend
  row : ColumnRef → Option Datum
  args : List Scalar
  like : String → String → Bool

def Setting.argument? (σ : Setting) : Nat → Option (Option Datum)
  | 0 => none
  | i + 1 => σ.args[i]?.bind Scalar.datum?

def Setting.likeTruth? (σ : Setting) : Option Datum → Option Datum → Option Truth
  | some (.text s), some (.text pattern) => some (some (σ.like s pattern))
  | none, none | none, some (.text _) | some (.text _), none => some none
  | _, _ => none

mutual

def Expr.value? (σ : Setting) : Expr → Option (Option Datum)
  | .column c => some (σ.row c)
  | .argument i => σ.argument? i
  | .integer i => some (some (.int i))
  | .call f args => do
      let vs ← Expr.values? σ args
      σ.backend.callValue? f vs
  | _ => none

def Expr.values? (σ : Setting) : List Expr → Option (List (Option Datum))
  | [] => some []
  | e :: rest => do
      let v ← e.value? σ
      let vs ← Expr.values? σ rest
      return v :: vs

end

def Expr.truth? (σ : Setting) : Expr → Option Truth
  | .truth b => some (some b)
  | .compare op l r => do
      let a ← l.value? σ
      let b ← r.value? σ
      Datum.compareTruth? op a b
  | .like l r => do
      let a ← l.value? σ
      let b ← r.value? σ
      σ.likeTruth? a b
  | .isNull e negated => do
      let v ← e.value? σ
      return some (v.isNone != negated)
  | .oneOf e items => do
      let v ← e.value? σ
      let vs ← Expr.values? σ items
      Datum.amongTruth? v vs
  | .not e => do
      let t ← e.truth? σ
      return t.map (!·)
  | .junction op l r => do
      let t ← l.truth? σ
      let u ← r.truth? σ
      return Relational.junctionTruth op t u
  | _ => none

end Sql

end RequestLog
