import RequestLog.Backend
import RequestLog.Decimal.Layout
import RequestLog.Metric.Basic

/-!
# Values on the command line

What an option or an operand may be set to. Names of metrics, tables and backends
form closed lists and are written exactly, with hyphens between their words;
names of stores may be written in any case. A number that is none, and a store
that there is not, is told apart from a name that is not on its list.
-/

namespace RequestLog.CommandLine

/-- Why arguments are not accepted, or what was asked for instead of running. -/
inductive Refusal where
  | unknownArgument
  | invalidSubcommand
  | missingArgument
  | conflict
  | invalidValue
  | valueValidation
  | tooManyValues
  | help
  | version
  deriving DecidableEq

def Refusal.label : Refusal → String
  | .unknownArgument => "UnknownArgument"
  | .invalidSubcommand => "InvalidSubcommand"
  | .missingArgument => "MissingRequiredArgument"
  | .conflict => "ArgumentConflict"
  | .invalidValue => "InvalidValue"
  | .valueValidation => "ValueValidation"
  | .tooManyValues => "TooManyValues"
  | .help => "DisplayHelp"
  | .version => "DisplayVersion"

abbrev Reader (α : Type) := String → Except Refusal α

def refuse {α : Type} (r : Refusal) : Option α → Except Refusal α
  | some a => .ok a
  | none => .error r

/-- Any text, also an empty one. -/
def readText : Reader String := .ok

def readPath : Reader String := fun s =>
  if s.isEmpty then .error .invalidValue else .ok s

/-- An unsigned number of 64 bits, with an optional plus sign. -/
def readUnsigned : Reader Nat := fun s =>
  let digits := match s.toList with
    | '+' :: rest => rest
    | cs => cs
  let n := Decimal.spelled digits
  if digits.isEmpty || !digits.all Char.isDigit || Decimal.twos 64 ≤ n then
    .error .valueValidation
  else .ok n

def readSigned : Reader Int := fun s => refuse .valueValidation (Decimal.readInt64 s)

/-- Lower case of the letters that names of stores are made of. -/
def lowered (c : Char) : Char := if c = '\u212a' then 'k' else c.toLower

def readRowBackend : Reader RowBackend := fun s =>
  match String.ofList (s.toList.map lowered) with
  | "sqlite" => .ok .sqlite
  | "postgres" | "postgresql" => .ok .postgres
  | _ => .error .valueValidation

def readColumnBackend : Reader ColumnBackend := fun s =>
  match String.ofList (s.toList.map lowered) with
  | "duckdb" => .ok .duckdb
  | "clickhouse" => .ok .clickhouse
  | _ => .error .valueValidation

def hyphenated (name : String) : String :=
  String.ofList (name.toList.map fun c => if c = '_' then '-' else c)

def readNamed {α : Type} (all : List α) (name : α → String) : Reader α := fun s =>
  refuse .invalidValue (all.find? fun a => hyphenated (name a) == s)

def readMetric : Reader Metric := readNamed Metric.all Metric.name

def readBackend : Reader Backend := readNamed Backend.all Backend.name

def readTable : Reader Table := readNamed Table.all Table.name

end RequestLog.CommandLine
