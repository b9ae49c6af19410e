import RequestLog.Sql.Token

/-!
# Reading expressions

Expressions are read from left to right in one pass over the tokens. What is
still open stands on a stack of frames, the innermost first. A binary operator
first closes every operator before it that binds at least as tightly, so equally
tight ones group to the left; anything that ends an operand closes all of them.

A list of expressions with names is read in the same pass: commas and names that
stand outside of every frame end an item.
-/

namespace RequestLog.Sql

/-- How tightly an operator binds; a negation stands between `AND` and comparisons. -/
def Binary.level : Binary → Nat
  | .junction .or => 1
  | .junction .and => 2
  | .compare _ | .like => 4
  | .arithmetic .add => 5
  | .arithmetic .mul | .arithmetic .div => 6

def notLevel : Nat := 3

/-- The level of comparisons, which tests for null and membership share. -/
def testLevel : Nat := Binary.like.level

def Binary.apply : Binary → Expr → Expr → Expr
  | .compare op, l, r => .compare op l r
  | .like, l, r => .like l r
  | .arithmetic op, l, r => .arithmetic op l r
  | .junction op, l, r => .junction op l r

inductive Frame where
  | binary (left : Expr) (op : Binary)
  | not
  | paren
  | call (function : String) (done : List Expr)
  | distinct
  | cast
  | oneOf (e : Expr) (done : List Expr)
  /-- Branches of a case, last one first; the frame waits for one more condition. -/
  | when (conditions results : List Expr)
  | then (conditions results : List Expr)
  | else (conditions results : List Expr)

inductive Due where
  | operand
  /-- An operator, or the end of an operand. -/
  | operator (e : Expr)
  /-- A comma, behind the name of an item. -/
  | comma

structure Reader where
  /-- The items that are complete, last one first. -/
  items : List (Expr × Option String)
  stack : List Frame
  due : Due

namespace Reader

def start : Reader := ⟨[], [], .operand⟩

/-- Closes the operators on top of the stack that bind at least as tightly. -/
def close (level : Nat) : List Frame → Expr → List Frame × Expr
  | .binary l op :: stack, e =>
      if level ≤ op.level then close level stack (op.apply l e)
      else (.binary l op :: stack, e)
  | .not :: stack, e =>
      if level ≤ notLevel then close level stack (.not e) else (.not :: stack, e)
  | stack, e => (stack, e)

def enter (r : Reader) (f : Frame) : Reader :=
  { r with stack := f :: r.stack, due := .operand }

def complete (r : Reader) (e : Expr) : Reader := { r with due := .operator e }

def operandStep (r : Reader) : Token → Option Reader
  | .operand e => some (r.complete e)
  | .not => some (r.enter .not)
  | .openParen => some (r.enter .paren)
  | .openCall f => some (r.enter (.call f []))
  | .openDistinct => some (r.enter .distinct)
  | .openCast => some (r.enter .cast)
  | .caseWhen => some (r.enter (.when [] []))
  | _ => none

/-- A token that ends the operand `e`, which has no open operators before it. -/
def endStep (r : Reader) (e : Expr) (t : Token) : Option Reader :=
  match r.stack, t with
  | .paren :: stack, .close => some ({ r with stack }.complete e)
  | .call f done :: stack, .close =>
      some ({ r with stack }.complete (.call f (done.reverse ++ [e])))
  | .call f done :: stack, .comma => some ({ r with stack }.enter (.call f (e :: done)))
  | .distinct :: stack, .close => some ({ r with stack }.complete (.countDistinct e))
  | .cast :: stack, .closeCast type => some ({ r with stack }.complete (.cast e type))
  | .oneOf x done :: stack, .close =>
      some ({ r with stack }.complete (.oneOf x (done.reverse ++ [e])))
  | .oneOf x done :: stack, .comma => some ({ r with stack }.enter (.oneOf x (e :: done)))
  | .when cs rs :: stack, .then => some ({ r with stack }.enter (.then (e :: cs) rs))
  | .then cs rs :: stack, .when => some ({ r with stack }.enter (.when cs (e :: rs)))
  | .then cs rs :: stack, .else => some ({ r with stack }.enter (.else cs (e :: rs)))
  | .else cs rs :: stack, .end =>
      some ({ r with stack }.complete (.caseWhen cs.reverse rs.reverse e))
  | [], .named name => some ⟨(e, some name) :: r.items, [], .comma⟩
  | [], .comma => some ⟨(e, none) :: r.items, [], .operand⟩
  | _, _ => none

/-- A token behind the operand `e`. -/
def operatorStep (r : Reader) (e : Expr) : Token → Option Reader
  | .binary op =>
      let (stack, e) := close op.level r.stack e
      some ({ r with stack }.enter (.binary e op))
  | .isNull negated =>
      let (stack, e) := close testLevel r.stack e
      some ({ r with stack }.complete (.isNull e negated))
  | .oneOf =>
      let (stack, e) := close testLevel r.stack e
      some ({ r with stack }.enter (.oneOf e []))
  | .typed type => some (r.complete (.typed e type))
  | t =>
      let (stack, e) := close 0 r.stack e
      { r with stack }.endStep e t

def step (r : Reader) (t : Token) : Option Reader :=
  match r.due with
  | .operand => r.operandStep t
  | .operator e => r.operatorStep e t
  | .comma =>
      match t with
      | .comma => some { r with due := .operand }
      | _ => none

def items? (r : Reader) : Option (List (Expr × Option String)) :=
  match r.due with
  | .operand => none
  | .comma => some r.items.reverse
  | .operator e =>
      match close 0 r.stack e with
      | ([], e) => some ((e, none) :: r.items).reverse
      | _ => none

end Reader

def readItems (tokens : List Token) : Option (List (Expr × Option String)) :=
  (tokens.foldlM Reader.step Reader.start).bind Reader.items?

def readExpr (tokens : List Token) : Option Expr :=
  match readItems tokens with
  | some [(e, none)] => some e
  | _ => none

end RequestLog.Sql
