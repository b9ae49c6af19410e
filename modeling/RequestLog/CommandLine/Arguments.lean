import RequestLog.CommandLine.Scan
import RequestLog.Config.Layer

/-!
# The arguments of the program

The program takes the settings of a configuration layer as options, before or
behind the command, and one of three commands. What stands behind the command
counts before what stands in front of it, and both before the environment.
-/

namespace RequestLog.CommandLine

inductive Command where
  | metrics (metric : Metric) (org body : String)
  | price (model : String) (promptTokens completionTokens : Int)
  | compile (org : String) (backend : Backend) (table : Table) (body : String)

structure Arguments where
  command : Option Command
  config : Option String
  layer : Config.Overrides

/-! ## Options -/

def checks {α : Type} (read : Reader α) : String → Except Refusal Unit :=
  fun s => (read s).map fun _ => ()

def spec {α : Type} (name : String) (read : Reader α) : ValueSpec :=
  ⟨name, checks read⟩

def plain {α : Type} (name : String) (read : Reader α) : OptionSpec :=
  { spec name read with }

def due {α : Type} (name : String) (read : Reader α) : OptionSpec :=
  { plain name read with required := true }

def setting {α : Type} (name envName : String) (read : Reader α)
    (short : Option Char) : OptionSpec :=
  { plain name read with short, envName? := some envName }

def settings : List OptionSpec := [
  setting "config" "REQUESTLENS_CONFIG" readPath (some 'c'),
  setting "row-store" "REQUESTLENS_ROW_STORE" readRowBackend none,
  setting "column-store" "REQUESTLENS_COLUMN_STORE" readColumnBackend none,
  setting "sqlite-path" "REQUESTLENS_SQLITE_PATH" readPath none,
  setting "duckdb-path" "REQUESTLENS_DUCKDB_PATH" readPath none,
  setting "postgres-url" "REQUESTLENS_POSTGRES_URL" readText none,
  setting "clickhouse-url" "REQUESTLENS_CLICKHOUSE_URL" readText none,
  setting "query-timeout-secs" "REQUESTLENS_QUERY_TIMEOUT_SECS" readUnsigned none,
  setting "pricing-rules-path" "REQUESTLENS_PRICING_RULES_PATH" readPath none]

def orgOption : OptionSpec :=
  { setting "org" "REQUESTLENS_ORG" readText none with required := true }

def bodyOption : OptionSpec := due "body" readText

def commandLevel : String → Level
  | "metrics" =>
      { options := [orgOption, bodyOption] ++ settings
        operands := [spec "metric" readMetric]
        commands := []
        hasVersion := false }
  | "price" =>
      { options := [plain "prompt-tokens" readSigned,
          plain "completion-tokens" readSigned] ++ settings
        operands := [spec "model" readText]
        commands := []
        hasVersion := false }
  | _ =>
      { options := [orgOption, due "backend" readBackend, plain "table" readTable,
          bodyOption] ++ settings
        operands := []
        commands := []
        hasVersion := false }

def commandWords : List String := ["metrics", "price", "compile"]

def helpWord : String := "help"

def topLevel : Level :=
  { options := settings
    operands := []
    commands := commandWords ++ [helpWord]
    hasVersion := true }

/-! ## Reading what was given -/

/-- Values by name: given behind the command, in front of it, or by the environment. -/
structure Values where
  inner : Given
  outer : Given
  options : List OptionSpec
  env : Environment

namespace Values

def text? (v : Values) (name : String) : Option String :=
  v.inner.get? name <|> v.outer.get? name <|>
    ((v.options.find? (·.name == name)).bind (·.fromEnvironment v.env))

def get? {α : Type} (v : Values) (name : String) (read : Reader α) : Option α :=
  (v.text? name).bind fun s => (read s).toOption

def due {α : Type} (v : Values) (name : String) (read : Reader α) : Except Refusal α :=
  refuse .missingArgument (v.get? name read)

def layer (v : Values) : Config.Overrides where
  rowStore := v.get? "row-store" readRowBackend
  columnStore := v.get? "column-store" readColumnBackend
  sqlitePath := v.get? "sqlite-path" readPath
  duckdbPath := v.get? "duckdb-path" readPath
  postgresUrl := v.get? "postgres-url" readText
  clickhouseUrl := v.get? "clickhouse-url" readText
  queryTimeout := v.get? "query-timeout-secs" readUnsigned
  rulesPath := v.get? "pricing-rules-path" readPath

def command (v : Values) : String → Except Refusal Command
  | "metrics" => do
      let metric ← v.due "metric" readMetric
      let org ← v.due "org" readText
      let body ← v.due "body" readText
      return .metrics metric org body
  | "price" => do
      let model ← v.due "model" readText
      let prompt := (v.get? "prompt-tokens" readSigned).getD 0
      let completion := (v.get? "completion-tokens" readSigned).getD 0
      return .price model prompt completion
  | _ => do
      let org ← v.due "org" readText
      let backend ← v.due "backend" readBackend
      let table := (v.get? "table" readTable).getD .requestResponseLog
      let body ← v.due "body" readText
      return .compile org backend table body

def arguments (v : Values) (command : Option Command) : Arguments :=
  ⟨command, v.get? "config" readPath, v.layer⟩

end Values

/-- Help can be asked for about the program or one of its commands. -/
def askHelp : List String → Refusal
  | [] => .help
  | [word] => if topLevel.commands.contains word then .help else .invalidSubcommand
  | _ => .invalidSubcommand

/-- The arguments, checked from left to right, a command before the program itself. -/
def Arguments.parse (env : Environment) (args : List String) :
    Except Refusal Arguments := do
  let outer ← scan topLevel { operands := [] } args
  match outer.command with
  | none =>
      let given ← topLevel.finish env outer.state
      return (Values.mk [] given settings env).arguments none
  | some (word, rest) =>
      if word = helpWord then throw (askHelp rest)
      let level := commandLevel word
      let inner ← scan level { operands := level.operands } rest
      let behind ← level.finish env inner.state
      let front ← topLevel.finish env outer.state
      let values : Values := ⟨behind, front, level.options, env⟩
      return values.arguments (some (← values.command word))

end RequestLog.CommandLine
