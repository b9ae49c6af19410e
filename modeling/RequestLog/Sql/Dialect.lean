import RequestLog.Backend
import RequestLog.Scalar
import RequestLog.Sql.Expr

/-!
# Dialects

What the four backends write differently: arguments, instants, truth values, the
search for a text in another, conversion to a double, and the larger of two
numbers. Everything else is the same SQL everywhere.

Two backends have no argument of their own for an instant. They are given
microseconds and turn them back (`instant`), and the row store that keeps
microseconds compares them as they are.
-/

namespace RequestLog.Backend

open Sql

/-- How the argument with a number counted from one is written. -/
def argumentText : Backend → Nat → String
  | .postgres, i => s!"${i}"
  | _, _ => "?"

def textOf (b : Backend) (e : Expr) : String := e.text b.argumentText

def encodeInstant : Backend → Instant → Scalar
  | .postgres, t => .timestamp t
  | _, t => .int t.micros

def instant : Backend → Expr → Expr
  | .duckdb, e => .call "make_timestamp" [e]
  | .clickhouse, e => .call "fromUnixTimestamp64Micro" [.call "toInt64" [e]]
  | _, e => e

def encodeBool : Backend → Bool → Scalar
  | .sqlite, b => .int (if b then 1 else 0)
  | _, b => .bool b

/-- One-based place of a needle in a text, zero when it does not occur. -/
def place : Backend → Expr → Expr → Expr
  | .sqlite, text, needle => .call "instr" [text, needle]
  | .postgres, text, needle | .duckdb, text, needle => .call "strpos" [text, needle]
  | .clickhouse, text, needle => .call "position" [text, needle]

def contains (b : Backend) (text needle : Expr) : Expr :=
  .compare .gt (b.place text needle) (.integer 0)

def startsWith : Backend → Expr → Expr → Expr
  | .sqlite, text, start => .compare .eq (.call "instr" [text, start]) (.integer 1)
  | .postgres, text, start | .duckdb, text, start => .call "starts_with" [text, start]
  | .clickhouse, text, start => .call "startsWith" [text, start]

def toDouble : Backend → Expr → Expr
  | .sqlite, e => .cast e "REAL"
  | .postgres, e => .typed e "DOUBLE PRECISION"
  | .duckdb, e => .cast e "DOUBLE"
  | .clickhouse, e => .call "toFloat64" [e]

/-- A number where there is one, and zero otherwise. -/
def orZero (e : Expr) : Expr := .call "coalesce" [e, .integer 0]

def nonNegative : Backend → Expr → Expr
  | .sqlite, e => .call "max" [orZero e, .integer 0]
  | _, e => .call "greatest" [orZero e, .integer 0]

end RequestLog.Backend
