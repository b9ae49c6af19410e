import RequestLog.Sql.Expr

/-!
# Tokens of a query

The text of a query is cut twice. Lexemes are the longest runs of characters of
one class: words, operators, and marks that stand alone. Tokens are what the
grammar is about; some consist of several words (`IS NOT NULL`), and whether a
parenthesis opens the arguments of a function or a list shows in the lexeme before
it. Arguments are numbered here: one that has no number gets the next.
-/

namespace RequestLog.Sql

inductive Keyword where
  | select | from | where | and | or | like | in | is | not | null | as | case
  | when | then | else | end | cast | distinct | left | inner | join | on
  | true | false
  deriving DecidableEq, BEq

def Keyword.all : List (String × Keyword) :=
  [("SELECT", .select), ("FROM", .from), ("WHERE", .where), ("AND", .and), ("OR", .or),
   ("LIKE", .like), ("IN", .in), ("IS", .is), ("NOT", .not), ("NULL", .null),
   ("AS", .as), ("CASE", .case), ("WHEN", .when), ("THEN", .then), ("ELSE", .else),
   ("END", .end), ("CAST", .cast), ("DISTINCT", .distinct), ("LEFT", .left),
   ("INNER", .inner), ("JOIN", .join), ("ON", .on), ("TRUE", .true), ("FALSE", .false)]

def Keyword.ofText? (s : String) : Option Keyword := Keyword.all.lookup s

inductive Lexeme where
  | keyword (k : Keyword)
  | name (s : String)
  | number (s : String)
  /-- An argument, with its number where it has one. -/
  | argument (index : Option Nat)
  | operator (s : String)
  | mark (c : Char)
  deriving DecidableEq, BEq

/-! ## Lexemes -/

inductive CharClass where
  | blank
  | word
  | operator
  | mark
  deriving DecidableEq, BEq

def charClass (c : Char) : CharClass :=
  if c = ' ' || c = '\n' || c = '\t' then .blank
  else if c.isAlphanum || c = '_' || c = '.' || c = '$' then .word
  else if "<>=:+*/-".toList.contains c then .operator
  else .mark

/-- Whether a character goes on with the run of one before it. -/
def joins (c : Char) (rest : List Char) : Bool :=
  (charClass c == .word || charClass c == .operator)
    && rest.head?.any fun d => charClass d == charClass c

def runs : List Char → List (List Char)
  | [] => []
  | c :: rest =>
      if charClass c == .blank then runs rest
      else if joins c rest then
        match runs rest with
        | [] => [[c]]
        | run :: more => (c :: run) :: more
      else [c] :: runs rest

def wordLexeme (s : List Char) : Lexeme :=
  let text := String.ofList s
  match s with
  | '$' :: digits => .argument (some (Decimal.spelled digits))
  | c :: _ =>
      if c.isDigit then .number text
      else match Keyword.ofText? text with
        | some k => .keyword k
        | none => .name text
  | [] => .name text

def lexeme (run : List Char) : Lexeme :=
  match run with
  | ['?'] => .argument none
  | c :: _ =>
      match charClass c with
      | .word => wordLexeme run
      | .operator => .operator (String.ofList run)
      | _ => .mark c
  | [] => .name ""

def lexemes (text : String) : List Lexeme := (runs text.toList).map lexeme

/-! ## Tokens -/

inductive Binary where
  | compare (op : Comparison)
  | like
  | arithmetic (op : Arithmetic)
  | junction (op : Junction)
  deriving DecidableEq, BEq

inductive Token where
  | operand (e : Expr)
  | binary (op : Binary)
  | isNull (negated : Bool)
  | oneOf
  | not
  | openParen
  | openCall (function : String)
  | openDistinct
  | openCast
  | close
  /-- The end of a cast, with its type. -/
  | closeCast (type : String)
  | typed (type : String)
  | comma
  | caseWhen
  | when
  | then
  | else
  | end
  | select
  | from
  | where
  | join (kind : JoinKind)
  | on
  | named (name : String)
  | stray
  deriving BEq

def nameExpr (s : String) : Expr :=
  match (s.toList.takeWhile (· ≠ '.'), s.toList.dropWhile (· ≠ '.')) with
  | (table, '.' :: column) => .column ⟨String.ofList table, String.ofList column⟩
  | _ => .bare s

/-- A number, with its sign; a whole one that does not fit 64 bits is a double. -/
def numberExpr (negative : Bool) (s : String) : Expr :=
  let text := if negative then "-" ++ s else s
  match Decimal.readInt64 text with
  | some i => .integer i
  | none => .number ((Decimal.readFloat text).getD 0)

def operatorToken (s : String) : Token :=
  match s with
  | "=" => .binary (.compare .eq)
  | "<>" => .binary (.compare .ne)
  | ">" => .binary (.compare .gt)
  | "<" => .binary (.compare .lt)
  | ">=" => .binary (.compare .ge)
  | "<=" => .binary (.compare .le)
  | "+" => .binary (.arithmetic .add)
  | "*" => .binary (.arithmetic .mul)
  | "/" => .binary (.arithmetic .div)
  | _ => .stray

def keywordToken : Keyword → Token
  | .select => .select
  | .from => .from
  | .where => .where
  | .and => .binary (.junction .and)
  | .or => .binary (.junction .or)
  | .not => .not
  | .like => .binary .like
  | .when => .when
  | .then => .then
  | .else => .else
  | .end => .end
  | .on => .on
  | .true => .operand (.truth true)
  | .false => .operand (.truth false)
  | .in | .is | .null | .as | .case | .cast | .distinct | .left | .inner
  | .join => .stray

def markToken (c : Char) : Token :=
  if c = '(' then .openParen
  else if c = ')' then .close
  else if c = ',' then .comma
  else .stray

/-- The tokens of a query whose next argument without a number is the `next`th. -/
def tokensFrom (next : Nat) : List Lexeme → List Token
  | [] => []
  | .argument none :: rest => .operand (.argument next) :: tokensFrom (next + 1) rest
  | .argument (some i) :: rest => .operand (.argument i) :: tokensFrom next rest
  | .operator "-" :: .number s :: rest =>
      .operand (numberExpr true s) :: tokensFrom next rest
  | .operator "::" :: .name s :: .name t :: rest =>
      .typed s!"{s} {t}" :: tokensFrom next rest
  | .operator "::" :: .name s :: rest => .typed s :: tokensFrom next rest
  | .operator s :: rest => operatorToken s :: tokensFrom next rest
  | .name f :: .mark '(' :: .operator "*" :: .mark ')' :: rest =>
      .operand (if f = "count" then .countAll else .bare f) :: tokensFrom next rest
  | .name _ :: .mark '(' :: .keyword .distinct :: rest =>
      .openDistinct :: tokensFrom next rest
  | .name f :: .mark '(' :: rest => .openCall f :: tokensFrom next rest
  | .name s :: rest => .operand (nameExpr s) :: tokensFrom next rest
  | .number s :: rest => .operand (numberExpr false s) :: tokensFrom next rest
  | .keyword .cast :: .mark '(' :: rest => .openCast :: tokensFrom next rest
  | .keyword .in :: .mark '(' :: rest => .oneOf :: tokensFrom next rest
  | .keyword .is :: .keyword .not :: .keyword .null :: rest =>
      .isNull true :: tokensFrom next rest
  | .keyword .is :: .keyword .null :: rest => .isNull false :: tokensFrom next rest
  | .keyword .case :: .keyword .when :: rest => .caseWhen :: tokensFrom next rest
  | .keyword .left :: .keyword .join :: rest => .join .left :: tokensFrom next rest
  | .keyword .inner :: .keyword .join :: rest => .join .inner :: tokensFrom next rest
  | .keyword .as :: .name s :: .mark ')' :: rest => .closeCast s :: tokensFrom next rest
  | .keyword .as :: .name s :: rest => .named s :: tokensFrom next rest
  | .keyword k :: rest => keywordToken k :: tokensFrom next rest
  | .mark c :: rest => markToken c :: tokensFrom next rest

def tokens (text : String) : List Token := tokensFrom 1 (lexemes text)

end RequestLog.Sql
