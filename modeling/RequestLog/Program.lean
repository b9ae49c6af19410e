import RequestLog.CommandLine.Arguments
import RequestLog.Config.Load
import RequestLog.Config.Variables
import RequestLog.Metric.Run
import RequestLog.Pricing.Builtin
import RequestLog.Pricing.File
import RequestLog.Store.Service

/-!
# The program

One run of the program reads its arguments and does what one command says. Of a
failure it tells the headline and nothing of the cause. The stores are opened for
metrics alone, and whichever way a metric ends, they are closed again.
-/

namespace RequestLog

structure Outcome where
  status : Nat
  output : String := ""
  message : Option String := none

namespace Program

/-- A part of a run, which may end it with a message. -/
abbrev Step (m : Type → Type) := ExceptT String m

def succeeded (output : String) : Outcome := { status := 0, output }

def failed (message : String) : Outcome := { status := 1, message := some message }

def shown (v : Json) : String := v.pretty ++ "\n"

/-! ## What needs no store -/

def compile (b : Backend) (table : Table) (org text : String) :
    Except FilterError Query := do
  let tenant ← Tenant.ofName org
  let body ← RequestBody.parse text
  b.compile ⟨table, tenant, body.filterOver table⟩

def price (prices : Pricing.PriceTable) (model : String) (prompt completion : Int) : Json :=
  let r := prices.resolve model
  .object [
    ("model", .text model),
    ("pricing", .object [
      ("facts", .object [
        ("prompt_token_cost", .number (.float r.facts.promptCost)),
        ("completion_token_cost", .number (.float r.facts.completionCost)),
        ("max_window_size", .number (.int r.facts.window))]),
      ("match_type", .text r.matchType.name),
      ("rule_index", match r.ruleIndex with
        | some i => .number (.int i)
        | none => .null)]),
    ("cost", .number (.float (r.facts.cost prompt completion)))]

variable {m : Type → Type} [Monad m]

/-- The text of a request: given as it is, or as the name of a file behind an `@`. -/
def readBody (files : Files m) (given : String) : Step m String :=
  match Text.after? ['@'] given.toList with
  | none => pure given
  | some path =>
      let path := String.ofList path
      (ExceptT.mk (files.read path)).adapt fun _ => s!"Failed to read request body: {path}"

def loadPrices (files : Files m) (path : Option String) : Step m Pricing.PriceTable :=
  match path with
  | none =>
      match Pricing.builtin with
      | .ok prices => pure prices
      | .error _ => throw "Built-in pricing rules are invalid"
  | some path => do
      let text ← (ExceptT.mk (files.read path)).adapt fun _ => complaint path
      match Pricing.PriceTable.parse text with
      | .ok prices => return prices
      | .error _ => throw (complaint path)
where
  complaint (path : String) : String := s!"Failed to load pricing rules: {path}"

def loadSettings (files : Files m) (places : Config.Places) (a : CommandLine.Arguments) :
    Step m Config.Settings :=
  (ExceptT.mk (Config.load files places a.config a.layer)).adapt (·.headline)

/-! ## Metrics -/

structure Deployment (m : Type → Type) where
  rows : RowStore m
  columns : ColumnStore m
  prices : Pricing.PriceTable

def openStores (o : Surroundings m) (s : Config.Settings) : Step m (Deployment m) := do
  let limit := s.queryTimeout * 1000
  let rows ← (RowStore.init o s limit).adapt fun _ => "Failed to initialize row store"
  let columns ← (ColumnStore.init o s limit).adapt fun _ =>
    "Failed to initialize column store"
  try
    let prices ← loadPrices o.files s.rulesPath
    return { rows, columns, prices }
  catch e =>
    ExceptT.lift columns.release
    throw e

def Deployment.close (d : Deployment m) : m Unit := do
  let _ ← d.rows.close
  let _ ← d.columns.close

def Deployment.measure (o : Surroundings m) (d : Deployment m) (metric : Metric)
    (org body : String) : Step m String := do
  let text ← readBody o.files body
  let rows := d.rows.executor o.clock
  let columns := d.columns.executor o.clock
  match ← ExceptT.lift (metric.runOn rows columns d.prices org text) with
  | .ok value =>
      return shown (.object [("metric", .text metric.name), ("value", value.toJson)])
  | .error e => throw s!"{e.category.title}: {e.publicMessage}"

/-! ## Commands -/

def runCommand (o : Surroundings m) (places : Config.Places) (a : CommandLine.Arguments) :
    CommandLine.Command → Step m String
  | .metrics metric org body => do
      let settings ← loadSettings o.files places a
      let d ← openStores o settings
      let result ← ExceptT.lift (d.measure o metric org body).run
      ExceptT.lift d.close
      liftM result
  | .price model prompt completion => do
      let settings ← loadSettings o.files places a
      let prices ← loadPrices o.files settings.rulesPath
      return shown (price prices model prompt completion)
  | .compile org backend table body => do
      let text ← readBody o.files body
      match compile backend table org text with
      | .ok q => return shown q.toJson
      | .error e => throw e.message

def usage : String :=
  "Usage: requestlens [OPTIONS] [COMMAND]\n\nCommands: "
    ++ Sql.commaList CommandLine.topLevel.commands ++ "\n"

/-- A question about the program is no failure; any other refusal is one. -/
def refused (r : CommandLine.Refusal) : Outcome :=
  match r with
  | .help | .version => { status := 0, output := usage }
  | _ => { status := 2 }

def variablesFile : String := ".env"

/-- The variables of the environment with those of the file beside the program. -/
def readVariables (files : Files m) (given : Config.Variables) : m Config.Variables := do
  match ← files.read variablesFile with
  | .ok text => return given.withText text
  | .error _ => return given

def placesOf (home current : String) (env : Config.Variables) : Config.Places :=
  ⟨home, current, Config.dataDirectory home (env.get? Config.dataVariable)⟩

def run (o : Surroundings m) (home current : String) (env : Config.Variables)
    (args : List String) : m Outcome := do
  let env ← readVariables o.files env
  match CommandLine.Arguments.parse env.get? args with
  | .error r => return refused r
  | .ok a =>
      match a.command with
      | none => return succeeded usage
      | some command =>
          let places := placesOf home current env
          match ← (runCommand o places a command).run with
          | .ok output => return succeeded output
          | .error message => return failed message

end Program

end RequestLog
