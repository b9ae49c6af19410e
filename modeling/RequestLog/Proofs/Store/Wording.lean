import RequestLog.Proofs.Store.Kept
import RequestLog.Sql.Token

/-!
# What the other statements say

Besides the statements that make something, setting up a store takes three: one asks whether
there is a table of some name, one asks for the version on record, and one puts a version down.
What such a text asks of a store is read from its words, as far as they are about the table of
the version or the store's own list of its tables (`Wording.asked`). A version is put down by a
row that has a value for each column of its table, and the number of the only row that the
table has; the values stand in the text, or in the arguments that its places are counted for.

The stores read alike. What is different is where they list their tables, which of these are
their own, and the words for the present time (`Wording`). A text that says anything else asks
for nothing that is known here, and is refused.
-/

namespace RequestLog.Store

open Schema
open Sql (Lexeme)

/-! ## Words -/

def words (cs : List Char) : List Lexeme := (Sql.runs cs).map Sql.lexeme

/-- The words up to the parenthesis that closes an open one, and those behind it. -/
def enclosed? (depth : Nat) : List Lexeme → Option (List Lexeme × List Lexeme)
  | [] => none
  | l :: rest =>
      let inner (depth : Nat) := (enclosed? depth rest).map fun found => (l :: found.1, found.2)
      if l = .mark '(' then inner (depth + 1)
      else if l ≠ .mark ')' then inner depth
      else match depth with
        | 0 => some ([], rest)
        | depth + 1 => inner depth

/-- The items of a list between commas. -/
def items {α : Type} (item? : List Lexeme → Option α) (ls : List Lexeme) : Option (List α) :=
  (ls.splitOn (.mark ',')).mapM item?

def name? : List Lexeme → Option String
  | [.name s] => some s
  | _ => none

/-- Places for arguments that have no number get the next one. -/
def numbered (next : Nat) : List Lexeme → List Lexeme
  | [] => []
  | .argument none :: rest => .argument (some next) :: numbered (next + 1) rest
  | l :: rest => l :: numbered next rest

/-- How many arguments a text is given. -/
def arity : List Lexeme → Nat
  | [] => 0
  | .argument (some i) :: rest => max i (arity rest)
  | _ :: rest => arity rest

/-! ## Statements -/

/-- What a column is given: an integer, or the time at which that happens. -/
inductive Given where
  | int (i : Int)
  | now
  deriving DecidableEq

/-- What becomes of a row whose key is taken: the row that is there gets some values. -/
structure Conflict where
  key : List String
  sets : List (String × Given)

structure Insertion where
  table : String
  row : List (String × Given)
  conflict : Option Conflict

/-- What is shown of which rows. -/
structure Lookup where
  shown : List Lexeme
  relation : String
  /-- Whether of rows that replace one another only the last is seen. -/
  final : Bool
  conditions : List (List Lexeme)

section

variable (value? : List Lexeme → Option Given)

def assignment? : List Lexeme → Option (String × Given)
  | .name column :: .operator "=" :: e => (value? e).map (column, ·)
  | _ => none

def conflict? : List Lexeme → Option (Option Conflict)
  | [] => some none
  | .keyword .on :: .name "CONFLICT" :: .mark '(' :: rest => do
      let (key, rest) ← enclosed? 0 rest
      match rest with
      | .name "DO" :: .name "UPDATE" :: .name "SET" :: rest =>
          return some ⟨← items name? key, ← items (assignment? value?) rest⟩
      | _ => none
  | _ => none

def insertion? : List Lexeme → Option Insertion
  | .name "INSERT" :: .name "INTO" :: .name table :: .mark '(' :: rest => do
      let (columns, rest) ← enclosed? 0 rest
      match rest with
      | .name "VALUES" :: .mark '(' :: rest =>
          let (values, rest) ← enclosed? 0 rest
          let columns ← items name? columns
          let values ← items value? values
          if columns.length = values.length then
            return ⟨table, columns.zip values, ← conflict? value? rest⟩
          else none
      | _ => none
  | _ => none

end

def conditions? : List Lexeme → Option (List (List Lexeme))
  | [] => some []
  | .keyword .where :: rest => some (rest.splitOn (.keyword .and))
  | _ => none

def lookup? : List Lexeme → Option Lookup
  | .keyword .select :: rest =>
      let shown := rest.takeWhile (· ≠ .keyword .from)
      match rest.drop shown.length with
      | _ :: .name relation :: .name "FINAL" :: rest =>
          (conditions? rest).map (⟨shown, relation, true, ·⟩)
      | _ :: .name relation :: rest => (conditions? rest).map (⟨shown, relation, false, ·⟩)
      | _ => none
  | _ => none

/-- Whether what is shown is that there is more than nothing. -/
def countsAny : List Lexeme → Bool
  | [.name f, .mark '(', .operator "*", .mark ')', .operator ">", .number "0"]
  | [.name f, .mark '(', .mark ')', .operator ">", .number "0"] => f == "count" || f == "COUNT"
  | _ => false

/-- The rows of which a query asks whether there are any. -/
def sought? : List Lexeme → Option Lookup
  | .keyword .select :: .name "EXISTS" :: .mark '(' :: rest => do
      let (inner, rest) ← enclosed? 0 rest
      let l ← lookup? inner
      if l.shown.isEmpty && rest.isEmpty then some l else none
  | ls => (lookup? ls).filter fun l => countsAny l.shown

/-! ## What they ask for -/

/-- How a store wants to be asked. -/
structure Wording where
  backend : Backend
  /-- The relation that lists the tables, and the column of their names. -/
  catalog : String
  nameColumn : String
  /-- What is true of the tables of the store itself. -/
  own : List String
  now : String

/-- Whether a column can be given something. -/
def admits (c : StoredColumn) : Given → Bool
  | .int i =>
      (c.type == .slot || c.type == .version) && Decimal.fitsSigned 32 i && c.only.all (· == i)
  | .now => c.type == .instant

namespace Wording

variable (w : Wording)

def value? (args : List (Option Int)) : List Lexeme → Option Given
  | [.number s] => (Decimal.readInt s).map .int
  | [.argument (some i)] => args[i - 1]?.join.map .int
  | e => if e = words w.now.toList then some .now else none

/-- The table that is looked for, by its name among those of the store. -/
def table? (l : Lookup) : Option String :=
  let own := w.own.map fun text => words text.toList
  if l.relation = w.catalog && !l.final && own.all l.conditions.contains then
    match l.conditions.filter (!own.contains ·) with
    | [[.name column, .operator "=", .mark '\'', .name table, .mark '\'']] =>
        if column = w.nameColumn then some table else none
    | _ => none
  else none

/-- Whether rows of a key replace one another in the end, however they were put down. -/
def replacing : Bool :=
  (versionTable w.backend).engine.any fun e =>
    Text.startsWith "ReplacingMergeTree(" e.name && e.order == slotColumn.name

/-- Whether a query is for the version, in the only row that its table has. -/
def readsVersion (l : Lookup) : Bool :=
  l.relation = versionTableName && l.shown = [.name versionColumn.name]
    && l.final == w.replacing
    && l.conditions.map (assignment? (w.value? [])) = [some (slotColumn.name, .int 1)]

def fits (values : List (String × Given)) : Bool :=
  values.all fun v => ((versionTable w.backend).column? v.1).any fun c => admits c v.2

/-- The version in a row that has what belongs into each column of the version's table. -/
def version? (i : Insertion) : Option Int :=
  if i.table = versionTableName && i.row.length = (versionTable w.backend).columns.length
      && w.fits i.row && i.row.lookup slotColumn.name = some (.int 1)
      && (i.row.lookup appliedColumn.name).isSome then
    match i.row.lookup versionColumn.name with
    | some (.int version) => some version
    | _ => none
  else none

/-- Whether a version that is put down replaces another one. -/
def replaces? (version : Int) : Option Conflict → Option Bool
  | none => some w.replacing
  | some c =>
      let table := versionTable w.backend
      if table.engine.isNone && c.key = table.keyColumns && w.fits c.sets
          && c.sets.all (!c.key.contains ·.1)
          && c.sets.lookup versionColumn.name = some (.int version) then some true
      else none

def recorded? (i : Insertion) : Option Deed := do
  let version ← w.version? i
  let replaces ← w.replaces? version i.conflict
  return .record version replaces

def read? (args : List (Option Int)) (ls : List Lexeme) : Option Deed :=
  match insertion? (w.value? args) ls with
  | some i => w.recorded? i
  | none =>
      match sought? ls with
      | some l => (w.table? l).map .findTable
      | none => ((lookup? ls).filter w.readsVersion).map fun _ => .readVersion

/-- What a text asks of a store that gives it integers for its arguments. -/
def asked (cs : List Char) (args : List (Option Int)) : Deed :=
  match Making.ofStatement? cs with
  | some made => .make [made]
  | none =>
      let ls := numbered 1 (words cs)
      if arity ls = args.length then (w.read? args ls).getD .unknown else .unknown

variable {w}

theorem asked_statement {cs : List Char} {made : Making}
    (h : Making.ofStatement? cs = some made) (args : List (Option Int)) :
    w.asked cs args = .make [made] := by
  rw [asked, h]

end Wording

/-- What a script asks for, in the words that all stores have for what they make. -/
def scripted (text : String) : Deed :=
  match Making.ofScript? text with
  | some made => .make made
  | none => .unknown

theorem scripted_of_made {text : String} {made : List Making}
    (h : Making.ofScript? text = some made) : scripted text = .make made := by
  rw [scripted, h]

end RequestLog.Store
