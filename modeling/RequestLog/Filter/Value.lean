import RequestLog.Filter.Error
import RequestLog.Instant.Reader
import RequestLog.Json.Decode

/-!
# Operands as they are written

A leaf's operand is written as plain data. What it stands for depends on the
kind of the column it is compared with: under a timestamp column a number counts
milliseconds and a text spells an instant, under any other a number is a number
and a text is a text. Whether the operand suits the operator is not asked here.
-/

namespace RequestLog.Filter

/-- The complaint that a value of some type does not fit a field. -/
def mismatch {α : Type} (field : String) (kind : Kind) (actual : String) :
    Except FilterError α :=
  .error (.typeMismatch field kind.name actual)

def numberOperand (field : String) (kind : Kind) (n : Json.Number) :
    Except FilterError Scalar :=
  match kind with
  | .timestamp =>
      match n.int64?.bind Instant.ofMillis? with
      | some t => .ok (.timestamp t)
      | none => mismatch field kind "number"
  | .float => .ok (.float n.toFloat)
  | .bool | .int | .text =>
      match n.int64? with
      | some i => .ok (.int i)
      | none => .ok (.float n.toFloat)

def textOperand (field : String) (kind : Kind) (s : String) :
    Except FilterError Scalar :=
  match kind with
  | .timestamp =>
      match Instant.read s with
      | .ok t => .ok (.timestamp t)
      | .error _ => mismatch field kind "text"
  | .bool | .int | .float | .text => .ok (.text s)

/-- An operand that is not a list; `nested` is what a list is called here. -/
def singleOperand (field : String) (kind : Kind) :
    Json → Except FilterError Scalar
  | .null => .ok .null
  | .bool b => .ok (.bool b)
  | .number n => numberOperand field kind n
  | .text s => textOperand field kind s
  | .array _ => mismatch field kind "nested list"
  | .object _ =>
      .error (.invalidShape s!"{field}: value must be a scalar or a list")

def operand (field : String) (kind : Kind) : Json → Except FilterError Scalar
  | .array items => (items.mapM (singleOperand field kind)).map .list
  | v => singleOperand field kind v

end RequestLog.Filter
