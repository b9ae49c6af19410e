import RequestLog.Config.Settings
import RequestLog.Files

/-!
# Loading the configuration

Two files are read, as far as they are there: the user's own, in a folder of the
home directory, and over it the one in the current directory or the one that was
named instead. A file that was named has to be there. Over both lies what was
given on the command line.
-/

namespace RequestLog.Config

inductive LoadError where
  | notFound (path : String)
  | unreadable (path reason : String)
  | malformed (path : String) (fault : Json.Fault)
  | noTime
  | noAddress (b : Backend)
  | noPriceList (path : String)

namespace LoadError

/-- The settings that say which backend is chosen and where its server is. -/
def addressKeys : Backend → String × String
  | .sqlite | .postgres => ("database.postgres.url", "database.row_store")
  | .duckdb | .clickhouse => ("database.clickhouse.url", "database.column_store")

def headline : LoadError → String
  | .notFound path => s!"Config file not found: {path}"
  | .unreadable path _ => s!"Failed to read config file: {path}"
  | .malformed path _ => s!"Failed to parse config file: {path}"
  | .noTime => "Configuration error: database.query_timeout_secs must be greater than 0"
  | .noAddress b =>
      let (url, choice) := addressKeys b
      s!"Configuration error: {url} is required when {choice} is '{b.name}'"
  | .noPriceList path =>
      s!"Configuration error: pricing.rules_path does not exist: {path}"

def cause? : LoadError → Option String
  | .unreadable _ reason => some reason
  | .malformed _ fault => some fault.message
  | _ => none

def message (e : LoadError) : String :=
  match e.cause? with
  | some cause => s!"{e.headline}: {cause}"
  | none => e.headline

end LoadError

def fileName : String := "requestlens.json"

def profilePath (p : Places) : String := join (join p.home ".requestlens") fileName

variable {m : Type → Type} [Monad m]

def readFile (files : Files m) (path : String) : m (Except LoadError File) := do
  match ← files.read path with
  | .error reason => return .error (.unreadable path reason)
  | .ok text =>
      match File.parse text with
      | .error fault => return .error (.malformed path fault)
      | .ok file => return .ok file

/-- A file that is not there is laid over nothing. -/
def readOver (files : Files m) (path : String) (lower : File) : m (Except LoadError File) := do
  match ← readFile files path with
  | .error e => return .error e
  | .ok upper => return .ok (lower.merge upper)

def readIfThere (files : Files m) (path : String) (lower : File) :
    m (Except LoadError File) := do
  if ← files.exists? path then readOver files path lower else return .ok lower

/-- The file that was named, or the one in the current directory, over the profile. -/
def readOverlay (files : Files m) (p : Places) (named : Option String) (lower : File) :
    m (Except LoadError File) := do
  match named with
  | none => readIfThere files fileName lower
  | some text =>
      let path := p.expand text
      if ← files.exists? path then readOver files path lower
      else return .error (.notFound path)

/-- What both files say together, as far as they are there. -/
def readFiles (files : Files m) (p : Places) (named : Option String) :
    m (Except LoadError File) := do
  match ← readIfThere files (profilePath p) {} with
  | .error e => return .error e
  | .ok profile => readOverlay files p named profile

/-- The first reason why settings are not sound, but for the price list. -/
def Settings.fault? (s : Settings) : Option LoadError :=
  if s.queryTimeout = 0 then some .noTime
  else if s.rowStore = .postgres && s.postgres.all (·.url.isEmpty) then
    some (.noAddress .postgres)
  else if s.columnStore = .clickhouse && s.clickhouse.all (·.url.isEmpty) then
    some (.noAddress .clickhouse)
  else none

def Settings.validate (files : Files m) (s : Settings) : m (Except LoadError Settings) := do
  match s.fault?, s.rulesPath with
  | some e, _ => return .error e
  | none, none => return .ok s
  | none, some path =>
      if ← files.exists? path then return .ok s else return .error (.noPriceList path)

def load (files : Files m) (p : Places) (named : Option String) (given : Overrides) :
    m (Except LoadError Settings) := do
  match ← readFiles files p named with
  | .error e => return .error e
  | .ok file => (resolve p file given).validate files

end RequestLog.Config
