import RequestLog.Text.Blank
import RequestLog.Text.Search

/-!
# Variables

The environment of a program is a list of variables. A file beside the program may
set more of them, one a line; a variable that is set already keeps its value.

A line gives a name and a value with an equals sign between them. Quotes around a
part of a value keep its blanks and its ends of line, a backslash takes the meaning
of the next character away, and a dollar sign stands before the name of a variable
whose value is meant. Behind a blank nothing but a comment may follow. Reading stops
at the first line that is none of this.
-/

namespace RequestLog.Config

abbrev Variables := List (String × String)

namespace Variables

def get? (vs : Variables) (name : String) : Option String := vs.lookup name

/-! ## Lines -/

/-- What the end of a line depends on: it is none inside of quotes. -/
inductive Mode where
  | plain
  | blank
  | escape
  | double
  | doubleEscape
  | single
  | singleEscape
  | comment
  deriving DecidableEq

def Mode.plainNext (c : Char) : Mode :=
  if c = '\\' then .escape
  else if c = '"' then .double
  else if c = '\'' then .single
  else .plain

def Mode.next (m : Mode) (c : Char) : Mode :=
  match m with
  | .plain =>
      if Text.isBlank c && c ≠ '\n' && c ≠ '\r' then .blank else plainNext c
  | .blank => if c = '#' then .comment else plainNext c
  | .escape => .plain
  | .double => if c = '\\' then .doubleEscape else if c = '"' then .plain else .double
  | .doubleEscape => .double
  | .single => if c = '\\' then .singleEscape else if c = '\'' then .plain else .single
  | .singleEscape => .single
  | .comment => if c = '\n' then .plain else .comment

/-- The lines of a text behind what was read of one, last character first. A line
that is still open at the end is none. -/
def linesAfter (mode : Mode) (done : List Char) : List Char → List (Option (List Char))
  | [] =>
      if mode = .plain || mode = .comment then
        if done.isEmpty then [] else [some done.reverse]
      else [none]
  | c :: rest =>
      let next := if c = '#' && done.all Text.isBlank then .comment else mode.next c
      if next = .comment then linesAfter .comment done rest
      else if c = '\n' && next = .plain then some done.reverse :: linesAfter .plain [] rest
      else linesAfter next (c :: done) rest

/-! ## Values -/

/-- What the reader of a value is inside of. Where `double` is set, it is inside of
double quotes too. -/
inductive Reading where
  | running (double : Bool)
  | single
  | escaped (double : Bool)
  /-- Behind a dollar sign, with the name so far, last character first. -/
  | name (double : Bool) (cs : List Char)
  /-- Behind a dollar sign and a brace. -/
  | braced (double : Bool) (cs : List Char)
  /-- Behind the blank that ends the value. -/
  | ending
  deriving DecidableEq

def escaped? (c : Char) : Option Char :=
  if c = 'n' then some '\n'
  else if "\\'\"$ ".toList.contains c then some c
  else none

variable (known : Variables)

/-- The value of a variable that is named backwards; nothing when it is not set. -/
def valueOf (name : List Char) : List Char :=
  ((get? known (String.ofList name.reverse)).getD "").toList

/-- One character of a value: where the reader is then, and the value so far, last
character first. -/
def readChar (r : Reading) (done : List Char) (c : Char) : Option (Reading × List Char) :=
  match r with
  | .ending => if c = ' ' || c = '\t' then some (.ending, done) else none
  | .escaped double => (escaped? c).map fun x => (.running double, x :: done)
  | .single => if c = '\'' then some (.running false, done) else some (.single, c :: done)
  | .name double cs =>
      if c.isAlphanum then some (.name double (c :: cs), done)
      else if c = '\x7b' && cs.isEmpty then some (.braced double [], done)
      else
        let done := (valueOf known cs).reverse ++ done
        if c = '$' then some (.name double [], done) else some (.running double, c :: done)
  | .braced double cs =>
      if c = '\x7d' then some (.running double, (valueOf known cs).reverse ++ done)
      else some (.braced double (c :: cs), done)
  | .running double =>
      if c = '$' then some (.name double [], done)
      else if c = '"' then some (.running (!double), done)
      else if c = '\\' then some (.escaped double, done)
      else if double then some (.running true, c :: done)
      else if c = '\'' then some (.single, done)
      else if c = ' ' || c = '\t' then some (.ending, done)
      else some (.running false, c :: done)

def readValue (r : Reading) (done : List Char) : List Char → Option (List Char)
  | [] =>
      match r with
      | .ending | .running false | .escaped false => some done.reverse
      | .name false cs => some (done.reverse ++ valueOf known cs)
      | _ => none
  | c :: rest =>
      if r = .ending && c = '#' then some done.reverse
      else
        match readChar known r done c with
        | some (r, done) => readValue r done rest
        | none => none

/-! ## Files -/

def isNameStart (c : Char) : Bool := c.isAlpha || c = '_'

def isNameRest (c : Char) : Bool := c.isAlphanum || c = '_' || c = '.'

def readName (s : List Char) : Option (List Char × List Char) :=
  if s.head?.any isNameStart then
    some (s.takeWhile isNameRest, Text.trimStart (s.dropWhile isNameRest))
  else none

/-- The name before an equals sign and what stands behind it. One word may precede
the name. -/
def readSetting (s : List Char) : Option (List Char × List Char) :=
  match readName s with
  | none => none
  | some (name, '=' :: rest) => some (name, Text.trimStart rest)
  | some (word, rest) =>
      if word = "export".toList then
        match readName rest with
        | some (name, '=' :: rest) => some (name, Text.trimStart rest)
        | _ => none
      else none

def readLine (line : List Char) : Option (String × String) :=
  match readSetting line with
  | none => none
  | some (name, value) =>
      let value := if value.head? = some '#' then [] else value
      (readValue known (.running false) [] value).map fun v =>
        (String.ofList name, String.ofList v)

/-- The variables with those that lines set, up to the first that cannot be read. -/
def withLines (known : Variables) : List (Option (List Char)) → Variables
  | [] => known
  | none :: _ => known
  | some line :: rest =>
      match Text.trim line with
      | [] | '#' :: _ => withLines known rest
      | line =>
          match readLine known line with
          | some v => withLines (known ++ [v]) rest
          | none => known

def withText (known : Variables) (text : String) : Variables :=
  let cs := text.toList
  let cs := if cs.head? = some '\ufeff' then cs.drop 1 else cs
  withLines known (linesAfter .plain [] cs)

end Variables

end RequestLog.Config
