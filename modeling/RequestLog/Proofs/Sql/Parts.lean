import RequestLog.Sql.Dialect

/-!
# The parts of an expression's text

An expression holds names, which stand in its text as they are, and arguments,
which are written as the dialect wants. Everything else in the text is fixed or is
a number. The facts about texts in this theory are therefore of two kinds: what
holds of the names is asked for, and what holds of the arguments follows from
their order, `Expr.arguments`, the one in which the text has them.
-/

namespace RequestLog.Sql

/-- The conditions and results of a case in the order of its branches. -/
def interleave {α : Type} : List (List α) → List (List α) → List α
  | c :: cs, r :: rs => c ++ r ++ interleave cs rs
  | _, _ => []

mutual

/-- The arguments of an expression in the order of its text. -/
def Expr.arguments : Expr → List Nat
  | .argument i => [i]
  | .verbatim _ | .column _ | .bare _ | .truth _ | .integer _ | .number _
  | .countAll => []
  | .countDistinct e | .isNull e _ | .not e | .cast e _ | .typed e _ => e.arguments
  | .compare _ l r | .like l r | .junction _ l r | .arithmetic _ l r =>
      l.arguments ++ r.arguments
  | .call _ args => (Expr.argumentLists args).flatten
  | .oneOf e items => e.arguments ++ (Expr.argumentLists items).flatten
  | .caseWhen cs rs e =>
      interleave (Expr.argumentLists cs) (Expr.argumentLists rs) ++ e.arguments

def Expr.argumentLists : List Expr → List (List Nat)
  | [] => []
  | e :: rest => e.arguments :: Expr.argumentLists rest

end

mutual

def Expr.names : Expr → List String
  | .verbatim s | .bare s => [s]
  | .column c => [c.table, c.column]
  | .argument _ | .truth _ | .integer _ | .number _ | .countAll => []
  | .countDistinct e | .isNull e _ | .not e => e.names
  | .cast e type | .typed e type => type :: e.names
  | .compare _ l r | .like l r | .junction _ l r | .arithmetic _ l r =>
      l.names ++ r.names
  | .call f args => f :: Expr.namesOf args
  | .oneOf e items => e.names ++ Expr.namesOf items
  | .caseWhen cs rs e => Expr.namesOf cs ++ Expr.namesOf rs ++ e.names

def Expr.namesOf : List Expr → List String
  | [] => []
  | e :: rest => e.names ++ Expr.namesOf rest

end

theorem Expr.argumentLists_eq_map (es : List Expr) :
    Expr.argumentLists es = es.map Expr.arguments := by
  induction es with
  | nil => rfl
  | cons e rest ih => rw [Expr.argumentLists, ih, List.map_cons]

theorem Expr.namesOf_eq_flatMap (es : List Expr) :
    Expr.namesOf es = es.flatMap Expr.names := by
  induction es with
  | nil => rfl
  | cons e rest ih => rw [Expr.namesOf, ih, List.flatMap_cons]

theorem Expr.texts_eq_map (argument : Nat → String) (es : List Expr) :
    Expr.texts argument es = es.map (Expr.text argument) := by
  induction es with
  | nil => rfl
  | cons e rest ih => rw [Expr.texts, ih, List.map_cons]

theorem commaList_singleton {s : String} : commaList [s] = s := by
  simp [commaList]

theorem commaList_cons_cons {s t : String} {rest : List String} :
    commaList (s :: t :: rest) = s ++ ", " ++ commaList (t :: rest) :=
  String.intercalate_cons_cons

/-! ## Texts as concatenations

Each text with its parts in a row, the way in which the proofs walk through it. -/

section

variable {argument : Nat → String}

attribute [local simp] Expr.text toString String.append_assoc

theorem text_call {f : String} {args : List Expr} :
    (Expr.call f args).text argument =
      f ++ ("(" ++ (commaList (Expr.texts argument args) ++ ")")) := by
  simp

theorem text_countDistinct {e : Expr} :
    (Expr.countDistinct e).text argument =
      "count(" ++ ("DISTINCT " ++ (e.text argument ++ ")")) := by
  simp

theorem text_compare {op : Comparison} {l r : Expr} :
    (Expr.compare op l r).text argument =
      l.text argument ++ ((" " ++ (op.text ++ " ")) ++ r.text argument) := by
  simp

theorem text_like {l r : Expr} :
    (Expr.like l r).text argument =
      l.text argument ++ (" LIKE " ++ r.text argument) := by
  simp

theorem text_isNull {e : Expr} {negated : Bool} :
    (Expr.isNull e negated).text argument =
      e.text argument ++ (if negated then " IS NOT NULL" else " IS NULL") := by
  rw [Expr.text]

theorem text_oneOf {e : Expr} {items : List Expr} :
    (Expr.oneOf e items).text argument =
      e.text argument ++ (" IN (" ++ (commaList (Expr.texts argument items) ++ ")")) := by
  simp

theorem text_not {e : Expr} :
    (Expr.not e).text argument = "NOT (" ++ (e.text argument ++ ")") := by
  simp

theorem text_junction {op : Junction} {l r : Expr} :
    (Expr.junction op l r).text argument =
      "(" ++ (l.text argument ++ ((") " ++ (op.text ++ " (")) ++
        (r.text argument ++ ")"))) := by
  simp

theorem text_arithmetic {op : Arithmetic} {l r : Expr} :
    (Expr.arithmetic op l r).text argument =
      l.text argument ++ ((" " ++ (op.text ++ " ")) ++ r.text argument) := by
  simp

theorem text_cast {e : Expr} {type : String} :
    (Expr.cast e type).text argument =
      "CAST(" ++ (e.text argument ++ (" AS " ++ (type ++ ")"))) := by
  simp

theorem text_typed {e : Expr} {type : String} :
    (Expr.typed e type).text argument =
      "(" ++ (e.text argument ++ (")::" ++ type)) := by
  simp

theorem text_caseWhen {cs rs : List Expr} {e : Expr} :
    (Expr.caseWhen cs rs e).text argument =
      "CASE" ++ (String.join (Expr.branches (Expr.texts argument cs)
        (Expr.texts argument rs)) ++ (" ELSE " ++ (e.text argument ++ " END"))) := by
  simp

end

/-! ## The texts of arguments -/

/-- Arguments written as the values that they stand for. -/
def inPlace (values : List Scalar) (render : Scalar → String) (i : Nat) : String :=
  render (values.getD (i - 1) .null)

theorem inPlace_succ {values : List Scalar} {render : Scalar → String} {i : Nat}
    {v : Scalar} (h : values[i]? = some v) : inPlace values render (i + 1) = render v := by
  rw [inPlace, Nat.add_sub_cancel, List.getD_eq_getElem?_getD, h]
  rfl

/-- An expression without arguments, whose text is always the same. -/
def Expr.Fixed (e : Expr) : Prop := ∀ g g' : Nat → String, e.text g = e.text g'

theorem argumentText_postgres (i : Nat) :
    Backend.argumentText .postgres i = String.ofList ('$' :: Nat.toDigits 10 i) := by
  have htext : Backend.argumentText .postgres i =
      "$" ++ String.ofList (Nat.toDigits 10 i) := rfl
  simp [htext]

theorem argumentText_mark {b : Backend} (hb : b ≠ .postgres) (i : Nat) :
    b.argumentText i = "?" := by
  cases b with
  | postgres => exact absurd rfl hb
  | sqlite | duckdb | clickhouse => rfl

end RequestLog.Sql
