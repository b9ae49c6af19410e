import RequestLog.Json.Basic

/-!
# Writing JSON

Texts are written between quotes with the short escapes where there is one, a
hexadecimal escape for the other controls, and everything else as it stands.
Members keep their order. The compact form has no space at all; the indented
form gives every item and member a line of its own, and leaves what is empty in
one piece.
-/

namespace RequestLog.Json

def escapedChar (c : Char) : List Char :=
  if c = '"' then ['\\', '"']
  else if c = '\\' then ['\\', '\\']
  else if c = '\x08' then ['\\', 'b']
  else if c = '\x0c' then ['\\', 'f']
  else if c = '\n' then ['\\', 'n']
  else if c = '\r' then ['\\', 'r']
  else if c = '\t' then ['\\', 't']
  else if c.toNat < 0x20 then
    ['\\', 'u', '0', '0', Nat.digitChar (c.toNat / 16), Nat.digitChar (c.toNat % 16)]
  else [c]

def quotedText (s : String) : String :=
  String.ofList ('"' :: s.toList.flatMap escapedChar ++ ['"'])

def Number.print : Number → String
  | .int i => Decimal.intText i
  | .float x => if x.isFinite then Decimal.jsonText x else "null"

def bracketed (left right : String) (parts : List String) : String :=
  left ++ String.intercalate "," parts ++ right

mutual

def compact : Json → String
  | .null => "null"
  | .bool b => if b then "true" else "false"
  | .number n => n.print
  | .text s => quotedText s
  | .array items => bracketed "[" "]" (compactItems items)
  | .object members => bracketed "\x7b" "\x7d" (compactMembers members)

def compactItems : List Json → List String
  | [] => []
  | v :: rest => compact v :: compactItems rest

def compactMembers : List (String × Json) → List String
  | [] => []
  | (k, v) :: rest => (quotedText k ++ ":" ++ compact v) :: compactMembers rest

end

def margin (depth : Nat) : String := String.ofList (List.replicate (2 * depth) ' ')

/-- Parts on lines of their own, one step deeper than the brackets. -/
def indentedBlock (left right : String) (depth : Nat) (parts : List String) : String :=
  if parts.isEmpty then left ++ right
  else
    let lines := parts.map fun p => "\n" ++ margin (depth + 1) ++ p
    bracketed left ("\n" ++ margin depth ++ right) lines

mutual

def indented (depth : Nat) : Json → String
  | .null => "null"
  | .bool b => if b then "true" else "false"
  | .number n => n.print
  | .text s => quotedText s
  | .array items => indentedBlock "[" "]" depth (indentedItems (depth + 1) items)
  | .object members =>
      indentedBlock "\x7b" "\x7d" depth (indentedMembers (depth + 1) members)

def indentedItems (depth : Nat) : List Json → List String
  | [] => []
  | v :: rest => indented depth v :: indentedItems depth rest

def indentedMembers (depth : Nat) : List (String × Json) → List String
  | [] => []
  | (k, v) :: rest =>
      (quotedText k ++ ": " ++ indented depth v) :: indentedMembers depth rest

end

def pretty (v : Json) : String := indented 0 v

end RequestLog.Json
