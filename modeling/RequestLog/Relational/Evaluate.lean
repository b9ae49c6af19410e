import RequestLog.Relational.Like
import RequestLog.Relational.Value
import RequestLog.Sql.Expr
import RequestLog.Text.Search

/-!
# The value of an expression

An expression is evaluated for a record, which has a value for every column of a
relation. Logic has three values: what is said about an absent value is unknown,
and a junction is known as far as one side decides it. Aggregates look at all the
records of a group instead; a column outside of them takes its value from the last
one.

Sums of integers are exact and must fit 64 bits. As soon as a double is added, a
sum goes on in doubles and carries its rounding errors along.
-/

namespace RequestLog.Relational

open Sql

structure Fault where
  code : Nat
  reason : String
  deriving DecidableEq

def Fault.message (f : Fault) : String := s!"(code: {f.code}) {f.reason}"

def fault {α : Type} (reason : String) : Except Fault α := .error ⟨1, reason⟩

abbrev Record := List (ColumnRef × Value)

structure Scope where
  args : List Value
  record : Record
  group : List Record

/-! ## Operators -/

def compareTruth (op : Comparison) (a b : Value) : Option Bool :=
  if a.isNull || b.isNull then none
  else some <| match op, a.compare b with
    | .eq, o => o == .eq
    | .ne, o => o != .eq
    | .gt, o => o == .gt
    | .lt, o => o == .lt
    | .ge, o => o != .lt
    | .le, o => o != .gt

def andTruth : Option Bool → Option Bool → Option Bool
  | some false, _ | _, some false => some false
  | some true, some true => some true
  | _, _ => none

def orTruth : Option Bool → Option Bool → Option Bool
  | some true, _ | _, some true => some true
  | some false, some false => some false
  | _, _ => none

def junctionTruth : Junction → Option Bool → Option Bool → Option Bool
  | .and => andTruth
  | .or => orTruth

/-- Whether a value is among others; absent ones leave it open. -/
def amongTruth (v : Value) (others : List Value) : Option Bool :=
  others.foldl (fun t o => orTruth t (compareTruth .eq v o)) (some false)

def number : Value → Value
  | .text s =>
      let (x, rest) := Value.leadingNumber s
      let front := String.ofList (s.toList.take (s.length - rest.length))
      match Decimal.readInt64 front with
      | some i => .int i
      | none => .real x
  | v => v

/-- An integer, or the double nearest to it where it does not fit. -/
def wideInt (i : Int) : Value :=
  if Decimal.fitsSigned 64 i then .int i else .real (Decimal.ofInt i)

def realArithmetic (op : Arithmetic) (x y : Float) : Value :=
  match op with
  | .add => .ofFloat (x + y)
  | .mul => .ofFloat (x * y)
  | .div => if y == 0 then .null else .ofFloat (x / y)

/-- Arithmetic of integers as long as both sides are, and of doubles otherwise. -/
def arithmetic (op : Arithmetic) (a b : Value) : Value :=
  match number a, number b with
  | .null, _ | _, .null => .null
  | .int i, .int j =>
      match op with
      | .add => wideInt (i + j)
      | .mul => wideInt (i * j)
      | .div => if j = 0 then .null else wideInt (Int.tdiv i j)
  | a, b => realArithmetic op a.toFloat b.toFloat

/-! ## Functions -/

def textOf (v : Value) : String :=
  match v.prefer .text with
  | .text s => s
  | _ => ""

def likeTruth (text pattern : Value) : Except Fault (Option Bool) :=
  if text.isNull || pattern.isNull then .ok none
  else if maxPatternSize < (textOf pattern).utf8ByteSize then
    fault "LIKE or GLOB pattern too complex"
  else .ok (some (like (textOf pattern) (textOf text)))

/-- One-based place of a text in another, zero when it does not occur. -/
def instr (text needle : Value) : Value :=
  if text.isNull || needle.isNull then .null
  else .int ((Text.position? (textOf needle).toList (textOf text).toList).getD 0 : Nat)

def greatest : List Value → Value
  | [] => .null
  | v :: rest => rest.foldl (fun m v =>
      if m.isNull || v.isNull then .null else if m.compare v == .lt then v else m) v

def firstPresent (vs : List Value) : Value := (vs.find? (!·.isNull)).getD .null

def apply (function : String) (args : List Value) : Except Fault Value :=
  match function, args with
  | "instr", [text, needle] => .ok (instr text needle)
  | "coalesce", vs => .ok (firstPresent vs)
  | "max", vs => .ok (greatest vs)
  | f, _ => fault s!"no such function: {f}"

def castTo (type : String) (v : Value) : Except Fault Value :=
  match type with
  | "REAL" => .ok (if v.isNull then .null else .real v.toFloat)
  | t => fault s!"no such type: {t}"

/-! ## Sums -/

structure Sum where
  count : Nat := 0
  whole : Int := 0
  /-- Set once the sum goes on in doubles. -/
  inDoubles : Bool := false
  overflow : Bool := false
  real : Float := 0
  error : Float := 0

namespace Sum

/-- Integers below this magnitude are doubles without rounding. -/
def exactBound : Int := Decimal.twos 52

/-- An integer as a double and the rest that a double cannot hold beside it. -/
def parts (i : Int) : Float × Float :=
  if -exactBound < i && i < exactBound then (Decimal.ofInt i, 0)
  else
    let low := Int.tmod i 16384
    (Decimal.ofInt (i - low), Decimal.ofInt low)

/-- Adds a double and carries the rounding error along. -/
def addReal (s : Sum) (x : Float) : Sum :=
  let t := s.real + x
  let lost := if x.abs < s.real.abs then (s.real - t) + x else (x - t) + s.real
  { s with real := t, error := s.error + lost }

def addInt (s : Sum) (i : Int) : Sum :=
  let (high, low) := parts i
  if low == 0 then s.addReal high else (s.addReal high).addReal low

def toDoubles (s : Sum) : Sum :=
  let (high, low) := parts s.whole
  { s with inDoubles := true, real := high, error := low }

def add (s : Sum) (v : Value) : Sum :=
  match v with
  | .null => s
  | .int i =>
      let s := { s with count := s.count + 1 }
      if s.inDoubles then s.addInt i
      else if Decimal.fitsSigned 64 (s.whole + i) then { s with whole := s.whole + i }
      else { s with overflow := true }.toDoubles.addInt i
  | v =>
      let s := { s with count := s.count + 1 }
      if s.inDoubles then { s with overflow := false }.addReal v.toFloat
      else s.toDoubles.addReal v.toFloat

def result (s : Sum) : Except Fault Value :=
  if s.count = 0 then .ok .null
  else if !s.inDoubles then .ok (.int s.whole)
  else if s.overflow then fault "integer overflow"
  else if s.error.isFinite then .ok (.ofFloat (s.real + s.error))
  else .ok (.ofFloat s.real)

end Sum

def sumOf (vs : List Value) : Except Fault Value := (vs.foldl Sum.add {}).result

/-- How many different values there are, absent ones apart. -/
def countDistinct (vs : List Value) : Nat :=
  (vs.foldl (fun seen v => if v.isNull || seen.any v.agrees then seen else v :: seen)
    []).length

/-! ## Expressions -/

def Scope.column (s : Scope) (c : ColumnRef) : Except Fault Value :=
  match s.record.find? (·.1 == c) with
  | some (_, v) => .ok v
  | none => fault s!"no such column: {c.text}"

def Scope.bare (s : Scope) (name : String) : Except Fault Value :=
  match s.record.find? (·.1.column == name) with
  | some (_, v) => .ok v
  | none => fault s!"no such column: {name}"

def choose : List Value → List Value → Value → Value
  | c :: cs, r :: rs, otherwise =>
      if c.truth = some true then r else choose cs rs otherwise
  | _, _, otherwise => otherwise

mutual

def evaluate (s : Scope) : Expr → Except Fault Value
  | .verbatim text => fault s!"near \"{text}\": syntax error"
  | .column c => s.column c
  | .bare name => s.bare name
  | .argument i => .ok (s.args.getD (i - 1) .null)
  | .truth b => .ok (.ofBool b)
  | .integer i => .ok (.int i)
  | .number x => .ok (.ofFloat x)
  | .call f args =>
      match f, args with
      | "sum", [e] => do
          let vs ← s.group.mapM fun r => evaluate { s with record := r } e
          sumOf vs
      | f, args => do
          let vs ← evaluateAll s args
          apply f vs
  | .countAll => .ok (.int s.group.length)
  | .countDistinct e => do
      let vs ← s.group.mapM fun r => evaluate { s with record := r } e
      return .int (countDistinct vs)
  | .compare op l r => do
      let l ← evaluate s l
      let r ← evaluate s r
      return .ofTruth (compareTruth op l r)
  | .like l r => do
      let l ← evaluate s l
      let r ← evaluate s r
      return .ofTruth (← likeTruth l r)
  | .isNull e negated => do
      let v ← evaluate s e
      return .ofBool (v.isNull != negated)
  | .oneOf e items => do
      let v ← evaluate s e
      let vs ← evaluateAll s items
      return .ofTruth (amongTruth v vs)
  | .not e => do
      let v ← evaluate s e
      return .ofTruth (v.truth.map (!·))
  | .junction op l r => do
      let l ← evaluate s l
      let r ← evaluate s r
      return .ofTruth (junctionTruth op l.truth r.truth)
  | .arithmetic op l r => do
      let l ← evaluate s l
      let r ← evaluate s r
      return arithmetic op l r
  | .cast e type => do
      let v ← evaluate s e
      castTo type v
  | .typed _ _ => fault "unrecognized token: \":\""
  | .caseWhen conditions results otherwise => do
      let cs ← evaluateAll s conditions
      let rs ← evaluateAll s results
      let v ← evaluate s otherwise
      return choose cs rs v

def evaluateAll (s : Scope) : List Expr → Except Fault (List Value)
  | [] => .ok []
  | e :: rest => do
      let v ← evaluate s e
      let vs ← evaluateAll s rest
      return v :: vs

end

mutual

def aggregates : Expr → Bool
  | .countAll | .countDistinct _ => true
  | .call f args => f == "sum" || anyAggregates args
  | .compare _ l r | .like l r | .junction _ l r | .arithmetic _ l r =>
      aggregates l || aggregates r
  | .isNull e _ | .not e | .cast e _ | .typed e _ => aggregates e
  | .oneOf e items => aggregates e || anyAggregates items
  | .caseWhen cs rs e => anyAggregates cs || anyAggregates rs || aggregates e
  | .verbatim _ | .column _ | .bare _ | .argument _ | .truth _ | .integer _
  | .number _ => false

def anyAggregates : List Expr → Bool
  | [] => false
  | e :: rest => aggregates e || anyAggregates rest

end

end RequestLog.Relational
