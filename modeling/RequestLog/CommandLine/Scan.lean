import RequestLog.CommandLine.Value

/-!
# Scanning arguments

A level of the command line is the program itself or one of its commands. Each
has options, which are named, and operands, which are not. A level is scanned
from left to right by a machine whose state is what was given so far and what is
still open, if there is something: an option whose value stands apart, and an
operand, are only closed and their values looked at when the next argument has
been seen.

What is not given may stand in the environment. That is looked up when the level
is complete, and a value found there has to be as good as one that was given.
-/

namespace RequestLog.CommandLine

structure ValueSpec where
  name : String
  check : String → Except Refusal Unit

structure OptionSpec extends ValueSpec where
  short : Option Char := none
  /-- The variable of the environment that stands in for the option. -/
  envName? : Option String := none
  required : Bool := false

structure Level where
  options : List OptionSpec
  operands : List ValueSpec
  commands : List String
  hasVersion : Bool

abbrev Given := List (String × String)

def Given.get? (g : Given) (name : String) : Option String :=
  (g.find? (·.1 == name)).map (·.2)

inductive Pending where
  | waiting (spec : ValueSpec)
  | holding (spec : ValueSpec) (value : String)

structure State where
  given : Given := []
  pending : Option Pending := none
  operands : List ValueSpec
  /-- Whether a double hyphen has ended the options. -/
  closed : Bool := false

namespace State

def set (st : State) (spec : ValueSpec) (value : String) : Except Refusal State := do
  if (st.given.get? spec.name).isSome then throw .conflict
  spec.check value
  return { st with given := st.given ++ [(spec.name, value)] }

/-- Closes what is open; an option needs a value for that. -/
def settle (st : State) : Except Refusal State :=
  match st.pending with
  | none => .ok st
  | some (.waiting _) => .error .invalidValue
  | some (.holding spec value) => { st with pending := none }.set spec value

end State

inductive Next where
  | go (st : State)
  /-- A command begins; the arguments behind it are its own. -/
  | command (name : String) (st : State)

variable (level : Level)

/-- An argument that is no option: an operand, or a command where there are some. -/
def scanWord (st : State) (arg : String) : Except Refusal Next :=
  if !st.closed && level.commands.contains arg then .ok (.command arg st)
  else match st.operands with
    | spec :: rest => do
        let st ← st.settle
        return .go { st with pending := some (.holding spec arg), operands := rest }
    | [] =>
        if level.commands.isEmpty || level.commands.contains arg then
          .error .unknownArgument
        else .error .invalidSubcommand

/-- Opens an option, or sets it at once when its value is attached. -/
def scanOption (st : State) (spec : ValueSpec) (attached : Option String) :
    Except Refusal Next := do
  let st ← st.settle
  match attached with
  | some value => return .go (← st.set spec value)
  | none => return .go { st with pending := some (.waiting spec) }

def scanAsked (st : State) (r : Refusal) : Except Refusal Next := do
  discard st.settle
  throw r

/-- The name before the first equals sign, and the value behind it. -/
def splitAttached (body : List Char) : String × Option String :=
  let name := body.takeWhile (· ≠ '=')
  match body.dropWhile (· ≠ '=') with
  | _ :: value => (String.ofList name, some (String.ofList value))
  | [] => (String.ofList name, none)

def askedByName (name : String) : Option Refusal :=
  if name == "help" then some .help
  else if name == "version" && level.hasVersion then some .version
  else none

def scanLong (st : State) (body : List Char) : Except Refusal Next :=
  let (name, attached) := splitAttached body
  match askedByName level name with
  | some r => if attached.isSome then .error .tooManyValues else scanAsked st r
  | none =>
      match level.options.find? (·.name == name) with
      | some spec => scanOption st spec.toValueSpec attached
      | none => .error .unknownArgument

/-- A single hyphen with letters behind it; only the first one can matter. -/
def scanShort (st : State) (c : Char) (rest : List Char) : Except Refusal Next :=
  if c = 'h' then scanAsked st .help
  else if c = 'V' && level.hasVersion then scanAsked st .version
  else match level.options.find? (·.short == some c) with
    | none => .error .unknownArgument
    | some spec =>
        let attached := match rest with
          | [] => none
          | '=' :: value => some (String.ofList value)
          | value => some (String.ofList value)
        scanOption st spec.toValueSpec attached

def scanArgument (st : State) (arg : String) : Except Refusal Next :=
  let takeValue : Except Refusal Next :=
    match st.pending with
    | some (.waiting spec) => .ok (.go { st with pending := some (.holding spec arg) })
    | _ => scanWord level st arg
  if st.closed then scanWord level st arg
  else match arg.toList with
    | ['-', '-'] => .ok (.go { st with closed := true })
    | '-' :: '-' :: body => scanLong level st body
    | ['-'] => takeValue
    | '-' :: c :: rest => scanShort level st c rest
    | _ => takeValue

/-- What a level's arguments say, and the command that follows with its own. -/
structure LevelScan where
  state : State
  command : Option (String × List String)

def scan (st : State) : List String → Except Refusal LevelScan
  | [] => .ok ⟨st, none⟩
  | arg :: rest =>
      match scanArgument level st arg with
      | .error r => .error r
      | .ok (.go st) => scan st rest
      | .ok (.command name st) => .ok ⟨st, some (name, rest)⟩

abbrev Environment := String → Option String

def OptionSpec.fromEnvironment (env : Environment) (spec : OptionSpec) : Option String :=
  spec.envName?.bind env

/-- Completes a level: closes it, looks up what is not given, and misses what is due. -/
def Level.finish (env : Environment) (st : State) : Except Refusal Given := do
  let st ← st.settle
  let absent := level.options.filter fun spec => (st.given.get? spec.name).isNone
  absent.forM fun spec =>
    match spec.fromEnvironment env with
    | some value => spec.check value
    | none => .ok ()
  if absent.any fun spec => spec.required && (spec.fromEnvironment env).isNone then
    throw .missingArgument
  unless st.operands.isEmpty do throw .missingArgument
  return st.given

end RequestLog.CommandLine
