import RequestLog.Instant.Basic
import RequestLog.Json.Print

/-!
# Scalars

The value a leaf compares with, and the value of an argument of a query. A list
is the operand of a membership test and nothing else; it is never an argument.
-/

namespace RequestLog

inductive Scalar where
  | null
  | bool (b : Bool)
  | int (i : Int)
  | float (x : Float)
  | text (s : String)
  | timestamp (t : Instant)
  | list (items : List Scalar)
  deriving BEq, Inhabited

namespace Scalar

def typeName : Scalar → String
  | .null => "null"
  | .bool _ => "bool"
  | .int _ => "int"
  | .float _ => "float"
  | .text _ => "text"
  | .timestamp _ => "timestamp"
  | .list _ => "list"

def isNull : Scalar → Bool
  | .null => true
  | _ => false

mutual

def toJson : Scalar → Json
  | .null => .null
  | .bool b => .bool b
  | .int i => .number (.int i)
  | .float x => .number (.float x)
  | .text s => .text s
  | .timestamp t => .text t.text
  | .list items => .array (listToJson items)

def listToJson : List Scalar → List Json
  | [] => []
  | s :: rest => s.toJson :: listToJson rest

end

end Scalar

end RequestLog
