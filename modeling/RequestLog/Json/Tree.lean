import RequestLog.Json.Token

/-!
# Syntax trees of JSON text

A tree holds the structure of a text as far as the text is well-formed. Where it
is not, the tree ends with the fault in place: an array or object that is not
closed is `stopped`, a value that is not one is `broken`. Whatever reads a tree
in order therefore raises the fault of the text at the moment it gets there, and
raises its own complaints about everything before that first.

The tree is built by a machine with a stack of open brackets, which takes one
token at a time and so needs no bound on nesting. How deep a reader will follow
is the reader's business (`room` in `RequestLog.Json.Decode`).
-/

namespace RequestLog.Json

mutual

inductive Tree where
  | null
  | bool (b : Bool)
  | number (n : Except Fault Number)
  | text (s : Except Fault String)
  | array (items : Items)
  | object (members : Members)
  | broken (b : Break) (start : Start)

inductive Items where
  | closed
  | stopped (b : Break)
  | cons (item : Tree) (rest : Items)

/-- `stopped` keeps the token that stood where a key or a comma should. -/
inductive Members where
  | closed
  | stopped (b : Break) (next : Option Token)
  | cons (key : Except Fault String) (value : Tree) (rest : Members)

end

/-- Items behind those already read, which are given last one first. -/
def Items.behind (last : Items) (done : List Tree) : Items :=
  done.foldl (fun items t => .cons t items) last

abbrev Member := Except Fault String × Tree

def Members.behind (last : Members) (done : List Member) : Members :=
  done.foldl (fun members m => .cons m.1 m.2 members) last

/-! ## The machine -/

/-- A bracket that waits for a value, with what it holds so far, last one first. -/
inductive Frame where
  | array (done : List Tree)
  | object (done : List Member) (key : Except Fault String)

/-- Where in the text the machine stands. -/
inductive Place where
  /-- Before a value. -/
  | value
  /-- Before an item of an array. -/
  | item (done : List Tree)
  /-- Before a key of an object. -/
  | key (done : List Member)
  /-- Between a key and its colon. -/
  | colon (done : List Member) (key : Except Fault String)
  /-- Behind a value inside of a bracket. -/
  | after (frame : Frame) (tree : Tree)

inductive Step where
  | go (place : Place) (stack : List Frame)
  | done (tree : Tree)
  | halt (tree : Tree)

/-- The bracket as a tree that the text breaks off inside of, with `t` last in it. -/
def Frame.stop (b : Break) (t : Tree) : Frame → Tree
  | .array done => .array (Items.behind (.cons t (.stopped b)) done)
  | .object done key => .object (Members.behind (.cons key t (.stopped b none)) done)

/-- The whole tree, when the text breaks off at `t` in the innermost bracket. -/
def abandon (b : Break) (t : Tree) (stack : List Frame) : Tree :=
  stack.foldl (fun t f => f.stop b t) t

/-- The tree of a token that is a value of its own, or the fault of one that is not. -/
def Token.leaf : Token → Except (Break × Start) Tree
  | .null => .ok .null
  | .bool b => .ok (.bool b)
  | .number n => .ok (.number n)
  | .text s => .ok (.text s)
  | .broken b start => .error (b, start)
  | .punct _ | .stray => .error (.both .expectedValue, .other)

/-- A value is complete: the text is, or the bracket around it goes on. -/
def complete (tree : Tree) : List Frame → Step
  | [] => .done tree
  | f :: stack => .go (.after f tree) stack

def startValue (stack : List Frame) : Token → Step
  | .punct .openArray => .go (.item []) stack
  | .punct .openObject => .go (.key []) stack
  | t =>
      match t.leaf with
      | .ok tree => complete tree stack
      | .error (b, start) => .halt (abandon b (.broken b start) stack)

/-- What is wrong with a token where a key should stand. -/
def keyBreak : Token → Break
  | .broken b .quote => b
  | .punct .closeObject => ⟨.trailingComma, .keyMustBeText⟩
  | _ => .both .keyMustBeText

def step (place : Place) (stack : List Frame) (t : Token) : Step :=
  match place with
  | .value => startValue stack t
  | .item done =>
      match t with
      | .punct .closeArray =>
          if done.isEmpty then complete (.array .closed) stack
          else
            let b : Break := ⟨.trailingComma, .expectedValue⟩
            .halt (abandon b (.array (Items.behind (.stopped b) done)) stack)
      | t => startValue (.array done :: stack) t
  | .key done =>
      match t, done with
      | .punct .closeObject, [] => complete (.object .closed) stack
      | .text key, _ => .go (.colon done key) stack
      | t, _ =>
          let b := keyBreak t
          .halt (abandon b (.object (Members.behind (.stopped b (some t)) done)) stack)
  | .colon done key =>
      match t with
      | .punct .colon => .go .value (.object done key :: stack)
      | _ =>
          let b := Break.both .expectedColon
          .halt (abandon b (.broken b .noColon) (.object done key :: stack))
  | .after (.array done) tree =>
      match t with
      | .punct .closeArray => complete (.array (Items.behind .closed (tree :: done))) stack
      | .punct .comma => .go (.item (tree :: done)) stack
      | _ =>
          let b := Break.both .expectedArrayComma
          .halt (abandon b (.array (Items.behind (.stopped b) (tree :: done))) stack)
  | .after (.object done key) tree =>
      match t with
      | .punct .closeObject =>
          complete (.object (Members.behind .closed ((key, tree) :: done))) stack
      | .punct .comma => .go (.key ((key, tree) :: done)) stack
      | t =>
          let b := Break.both .expectedObjectComma
          .halt (abandon b
            (.object (Members.behind (.stopped b (some t)) ((key, tree) :: done))) stack)

def cut (stack : List Frame) : Place → Tree
  | .value =>
      let b := Break.both .endInValue
      abandon b (.broken b .nothing) stack
  | .item done =>
      let b := Break.both (if done.isEmpty then .endInArray else .endInValue)
      abandon b (.array (Items.behind (.stopped b) done)) stack
  | .key done =>
      let b : Break := ⟨if done.isEmpty then .endInObject else .endInValue, .endInObject⟩
      abandon b (.object (Members.behind (.stopped b none) done)) stack
  | .colon done key =>
      let b := Break.both .endInObject
      abandon b (.broken b .noColon) (.object done key :: stack)
  | .after (.array done) tree =>
      let b := Break.both .endInArray
      abandon b (.array (Items.behind (.stopped b) (tree :: done))) stack
  | .after (.object done key) tree =>
      let b := Break.both .endInObject
      abandon b (.object (Members.behind (.stopped b none) ((key, tree) :: done))) stack

/-- The first value among the tokens, whole or broken off, and the tokens behind it. -/
def build (place : Place) (stack : List Frame) : List Token → Tree × List Token
  | [] => (cut stack place, [])
  | t :: ts =>
      match step place stack t with
      | .go place stack => build place stack ts
      | .done tree => (tree, ts)
      | .halt tree => (tree, [])

theorem build_length (place : Place) (stack : List Frame) (t : Token) (ts : List Token) :
    (build place stack (t :: ts)).2.length ≤ ts.length := by
  induction ts generalizing place stack t with
  | nil =>
    simp only [build]
    split <;> simp
  | cons u us ih =>
    rw [build]
    split
    · next place stack _ => exact Nat.le_succ_of_le (ih place stack u)
    · simp
    · simp

/-- The values that stand one behind the other, the last of them maybe broken off. -/
def forest : List Token → List Tree
  | [] => []
  | t :: ts =>
      let built := build .value [] (t :: ts)
      built.1 :: forest built.2
termination_by ts => ts.length
decreasing_by
  have := build_length .value [] t ts
  simp; omega

end RequestLog.Json
