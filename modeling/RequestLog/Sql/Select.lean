import RequestLog.Sql.Reader

/-!
# Reading queries

A query selects items from a relation, and may have a condition. Its parts are
told apart by the words `FROM` and `WHERE`, which occur nowhere else. An item
without a name is called by its own text.
-/

namespace RequestLog.Sql

structure Select where
  items : List (Expr × String)
  relation : Relation
  condition : Expr

/-- The text of an expression, by which an item without a name is called. -/
def itemText (e : Expr) : String := e.text fun _ => "?"

def readJoins : List Token → Option (List Join)
  | [] => some []
  | .join kind :: .operand (.bare table) :: .on :: .operand (.column left)
      :: .binary (.compare .eq) :: .operand (.column right) :: rest =>
      (readJoins rest).map (⟨kind, table, left, right⟩ :: ·)
  | _ => none

def readRelation : List Token → Option Relation
  | .operand (.bare table) :: rest => (readJoins rest).map (⟨table, ·⟩)
  | _ => none

/-- The tokens before and behind the first of one kind, if there is one. -/
def cutAt (isIt : Token → Bool) (tokens : List Token) : List Token × Option (List Token) :=
  match tokens.span fun t => !isIt t with
  | (before, _ :: after) => (before, some after)
  | (before, []) => (before, none)

def Token.isFrom : Token → Bool
  | .from => true
  | _ => false

def Token.isWhere : Token → Bool
  | .where => true
  | _ => false

def readCondition : Option (List Token) → Option Expr
  | none => some (.truth true)
  | some tokens => readExpr tokens

def Select.ofTokens? : List Token → Option Select
  | .select :: rest =>
      match cutAt Token.isFrom rest with
      | (_, none) => none
      | (items, some rest) => do
          let (relation, condition) := cutAt Token.isWhere rest
          let items ← readItems items
          let relation ← readRelation relation
          let condition ← readCondition condition
          return ⟨items.map fun (e, name) => (e, name.getD (itemText e)), relation, condition⟩
  | _ => none

def Select.ofText? (text : String) : Option Select := Select.ofTokens? (tokens text)

end RequestLog.Sql
