import RequestLog.Scalar

/-!
# Literals in place of arguments

This server is sent its arguments as part of the text. Every question mark stands
for the next argument, and two of them for one question mark. An argument becomes
a literal; a text among them is quoted, so that no literal can end before its
value does.
-/

namespace RequestLog.Store.Clickhouse

inductive Argument where
  | null
  | bool (b : Bool)
  | int (i : Int)
  | float (x : Float)
  | text (s : String)

def bind : Scalar → Option Argument
  | .null => some .null
  | .bool b => some (.bool b)
  | .int i => some (.int i)
  | .float x => some (.float x)
  | .text s => some (.text s)
  | .timestamp t => some (.int t.micros)
  | .list _ => none

def isEscaped (c : Char) : Bool := c == '\\' || c == '\'' || c == '\x60' || c == '\t' || c == '\n'

def quoted (s : String) : List Char :=
  '\'' :: s.toList.flatMap (fun c => if isEscaped c then ['\\', c] else [c]) ++ ['\'']

def Argument.literal : Argument → List Char
  | .null => "NULL".toList
  | .bool b => (if b then "true" else "false").toList
  | .int i => (Decimal.intText i).toList
  | .float x => (Decimal.sqlText x).toList
  | .text s => quoted s

inductive FillError where
  /-- A question mark has no argument. -/
  | missing
  /-- An argument has no question mark. -/
  | unused
  deriving DecidableEq

def FillError.message : FillError → String
  | .missing => "invalid SQL: unbound query argument"
  | .unused => "invalid SQL: unexpected bind(), all arguments are already bound"

/-- A text with literals in place of its question marks. -/
def fill : List Char → List Argument → Except FillError (List Char)
  | [], [] => .ok []
  | [], _ :: _ => .error .unused
  | '?' :: '?' :: rest, args => (fill rest args).map ('?' :: ·)
  | '?' :: _, [] => .error .missing
  | '?' :: rest, a :: args => (fill rest args).map (a.literal ++ ·)
  | c :: rest, args => (fill rest args).map (c :: ·)

end RequestLog.Store.Clickhouse
