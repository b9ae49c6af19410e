import RequestLog.Decimal.Layout

/-!
# JSON values

A number keeps the reading its text asks for: an integer when the text has
neither point nor exponent and fits 64 bits, signed or unsigned, and a double
otherwise. Members of an object stay in the order in which their keys first
appeared; a repeated key keeps its place and takes the later value.
-/

namespace RequestLog

inductive Json.Number where
  | int (i : Int)
  | float (x : Float)
  deriving BEq, Inhabited

inductive Json where
  | null
  | bool (b : Bool)
  | number (n : Json.Number)
  | text (s : String)
  | array (items : List Json)
  | object (members : List (String × Json))
  deriving BEq, Inhabited

namespace Json

/-- Members with one more value, which replaces an earlier one of its key. -/
def put (key : String) (value : Json) (members : List (String × Json)) :
    List (String × Json) :=
  if members.any (·.1 == key) then
    members.map fun m => if m.1 == key then (key, value) else m
  else members ++ [(key, value)]

def get? (key : String) (members : List (String × Json)) : Option Json :=
  (members.find? (·.1 == key)).map (·.2)

def Number.int64? : Number → Option Int
  | .int i => if Decimal.fitsSigned 64 i then some i else none
  | .float _ => none

def Number.toFloat : Number → Float
  | .int i => Decimal.ofInt i
  | .float x => x

/-- A double as a JSON value; what is not finite has no number and becomes null. -/
def ofFloat (x : Float) : Json :=
  if x.isFinite then .number (.float x) else .null

end Json

end RequestLog
