import RequestLog.Json.Basic
import RequestLog.Text.Quoted

/-!
# What can be wrong with a JSON text

Reading stops at the first fault. The first group concerns the text itself, the
second the shape it was expected to have: a fault of either group is raised as
soon as the reader reaches it, whatever follows.
-/

namespace RequestLog.Json

inductive Found where
  | null
  | bool (b : Bool)
  | number (n : Number)
  | text (s : String)
  | sequence
  | map
  | unitVariant
  deriving BEq

inductive Fault where
  | endInArray
  | endInObject
  | endInText
  | endInValue
  | expectedColon
  | expectedArrayComma
  | expectedObjectComma
  | expectedWord
  | expectedValue
  | invalidEscape
  | invalidNumber
  | numberOutOfRange
  | controlCharacter
  | invalidCodePoint
  | keyMustBeText
  | loneSurrogate
  | endOfHexEscape
  | trailingComma
  | trailingCharacters
  | nestingLimit
  | invalidType (found : Found) (expected : String)
  | invalidValue (found : Found) (expected : String)
  | invalidLength (length : Nat) (expected : String)
  | unknownField (name : String) (known : List String)
  | unknownVariant (name : String) (known : List String)
  | duplicateField (name : String)
  | missingField (name : String)
  | noVariant (choice : String)
  deriving BEq

def found : Json → Found
  | .null => .null
  | .bool b => .bool b
  | .number n => .number n
  | .text s => .text s
  | .array _ => .sequence
  | .object _ => .map

def Found.describe : Found → String
  | .null => "null"
  | .bool b => if b then "boolean `true`" else "boolean `false`"
  | .number (.int i) => s!"integer `{Decimal.intText i}`"
  | .number (.float x) => s!"floating point `{Decimal.jsonText x}`"
  | .text s => s!"string {Text.quoted s}"
  | .sequence => "sequence"
  | .map => "map"
  | .unitVariant => "unit variant"

def oneOf (names : List String) : String :=
  let ticked := names.map fun n => s!"`{n}`"
  match ticked with
  | [] => "nothing"
  | [a] => a
  | [a, b] => s!"{a} or {b}"
  | many => "one of " ++ String.intercalate ", " many

def Fault.message : Fault → String
  | .endInArray => "EOF while parsing a list"
  | .endInObject => "EOF while parsing an object"
  | .endInText => "EOF while parsing a string"
  | .endInValue => "EOF while parsing a value"
  | .expectedColon => "expected `:`"
  | .expectedArrayComma => "expected `,` or `]`"
  | .expectedObjectComma => "expected `,` or `\x7d`"
  | .expectedWord => "expected ident"
  | .expectedValue => "expected value"
  | .invalidEscape => "invalid escape"
  | .invalidNumber => "invalid number"
  | .numberOutOfRange => "number out of range"
  | .controlCharacter =>
      "control character (\\u0000-\\u001F) found while parsing a string"
  | .invalidCodePoint => "invalid unicode code point"
  | .keyMustBeText => "key must be a string"
  | .loneSurrogate => "lone leading surrogate in hex escape"
  | .endOfHexEscape => "unexpected end of hex escape"
  | .trailingComma => "trailing comma"
  | .trailingCharacters => "trailing characters"
  | .nestingLimit => "recursion limit exceeded"
  | .invalidType found expected =>
      s!"invalid type: {found.describe}, expected {expected}"
  | .invalidValue found expected =>
      s!"invalid value: {found.describe}, expected {expected}"
  | .invalidLength n expected => s!"invalid length {n}, expected {expected}"
  | .unknownField name known => s!"unknown field `{name}`, expected {oneOf known}"
  | .unknownVariant name known =>
      s!"unknown variant `{name}`, expected {oneOf known}"
  | .duplicateField name => s!"duplicate field `{name}`"
  | .missingField name => s!"missing field `{name}`"
  | .noVariant choice => s!"data did not match any variant of untagged enum {choice}"

end RequestLog.Json
