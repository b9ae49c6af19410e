import RequestLog.Backend
import RequestLog.Text.Search

/-!
# What can go wrong with a store

Four kinds of failure are kept apart. A connection fails for the reasons of its
client: the row stores are reached through a pool of connections (`PoolError`),
one column store over HTTP (`HttpError`), and the embedded column store says why
in words of its own. A store that cannot be opened is an `OpenError`; a query
that cannot be answered is a `FetchError`; a row that does not hold what was
asked for is a `DecodeError`.

Some failures may pass by themselves. Which ones is decided here, once for
opening (`transient`) and once for fetching (`retryable`).
-/

namespace RequestLog.Store

/-! ## Clients -/

inductive PoolError where
  | timedOut
  | closed
  | workerCrashed
  | noRow
  | io (reason : String)
  | protocol (reason : String)
  | configuration (reason : String)
  | columnNotFound (name : String)
  | columnDecode (index : Nat) (reason : String)
  | database (reason : String)
  deriving DecidableEq

/-- What both kinds of client say when a row was due and none came. -/
def noRowMessage : String :=
  "no rows returned by a query that expected to return at least one row"

namespace PoolError

def message : PoolError → String
  | .timedOut => "pool timed out while waiting for an open connection"
  | .closed => "attempted to acquire a connection on a closed pool"
  | .workerCrashed => "attempted to communicate with a crashed background worker"
  | .noRow => noRowMessage
  | .io reason => s!"error communicating with database: {reason}"
  | .protocol reason => s!"encountered unexpected or invalid data: {reason}"
  | .configuration reason => s!"error with configuration: {reason}"
  | .columnNotFound name => s!"no column found for name: {name}"
  | .columnDecode index reason =>
      s!"error occurred while decoding column {index}: {reason}"
  | .database reason => s!"error returned from database: {reason}"

def transient : PoolError → Bool
  | .timedOut | .closed | .io _ => true
  | _ => false

end PoolError

inductive HttpError where
  | network (reason : String)
  | badResponse (reason : String)
  | custom (reason : String)
  | timedOut
  | noRow
  | schemaMismatch (reason : String)
  | invalidParams (reason : String)
  | other (reason : String)
  deriving DecidableEq

namespace HttpError

def message : HttpError → String
  | .network reason => s!"network error: {reason}"
  | .badResponse reason => s!"bad response: {reason}"
  | .custom reason => s!"a custom error message from serde: {reason}"
  | .timedOut => "timeout expired"
  | .noRow => noRowMessage
  | .schemaMismatch reason => s!"schema mismatch: {reason}"
  | .invalidParams reason => s!"invalid params: {reason}"
  | .other reason => reason

/-- The words of a message that speak of the way to the server. -/
def transientWords : List String := ["connection", "timeout", "network"]

def transient (e : HttpError) : Bool :=
  transientWords.any fun word => Text.occurs word e.message

end HttpError

/-! ## Opening -/

inductive OpenError where
  | sqlite (e : PoolError)
  | postgres (e : PoolError)
  | duckdb (reason : String)
  | clickhouse (e : HttpError)
  | schema (b : Backend) (reason : String)
  | config (reason : String)
  | io (reason : String)
  deriving DecidableEq

namespace OpenError

def message : OpenError → String
  | .sqlite e => s!"SQLite error: {e.message}"
  | .postgres e => s!"PostgreSQL error: {e.message}"
  | .duckdb reason => s!"DuckDB error: {reason}"
  | .clickhouse e => s!"ClickHouse error: {e.message}"
  | .schema b reason => s!"Schema setup failed on {b.name}: {reason}"
  | .config reason => s!"Configuration error: {reason}"
  | .io reason => s!"IO error: {reason}"

def transient : OpenError → Bool
  | .sqlite e | .postgres e => e.transient
  | .clickhouse e => e.transient
  | .duckdb _ | .schema .. | .config _ | .io _ => false

def backend? : OpenError → Option Backend
  | .sqlite _ => some .sqlite
  | .postgres _ => some .postgres
  | .duckdb _ => some .duckdb
  | .clickhouse _ => some .clickhouse
  | .schema b _ => some b
  | .config _ | .io _ => none

def label : OpenError → String
  | .sqlite _ => "Sqlite"
  | .postgres _ => "Postgres"
  | .duckdb _ => "Duckdb"
  | .clickhouse _ => "Clickhouse"
  | .schema .. => "SchemaFailed"
  | .config _ => "Config"
  | .io _ => "Io"

def backendName (e : OpenError) : String :=
  match e.backend? with
  | some b => b.name
  | none => "unknown"

end OpenError

/-! ## Fetching -/

inductive DecodeError where
  | missingColumn (column : String)
  | wrongType (column expected actual : String)
  | unexpectedNull (column : String)
  | shape (reason : String)
  deriving DecidableEq

def DecodeError.message : DecodeError → String
  | .missingColumn column => s!"Missing column {column}"
  | .wrongType column expected actual =>
      s!"Column {column} expected {expected}, got {actual}"
  | .unexpectedNull column => s!"Unexpected NULL in column {column}"
  | .shape reason => s!"Row does not match declared shape: {reason}"

def DecodeError.label : DecodeError → String
  | .missingColumn _ => "MissingColumn"
  | .wrongType .. => "WrongType"
  | .unexpectedNull _ => "UnexpectedNull"
  | .shape _ => "Shape"

inductive FetchError where
  | store (b : Backend) (reason : String) (mayRetry : Bool)
  | timeout (b : Backend) (seconds : Nat)
  | dialect (compiled executor : Backend)
  | decode (e : DecodeError)
  | unavailable (b : Backend) (reason : String)
  deriving DecidableEq

namespace FetchError

def message : FetchError → String
  | .store b reason _ => s!"{b.name} query failed: {reason}"
  | .timeout b seconds => s!"Query timeout after {seconds}s on {b.name}"
  | .dialect compiled executor =>
      s!"Query compiled for {compiled.name} cannot run on {executor.name}"
  | .decode e => s!"Failed to decode result: {e.message}"
  | .unavailable b reason => s!"Backend {b.name} is not available: {reason}"

/-- A word by which programs tell the failure; that of a row is the row's own. -/
def label : FetchError → String
  | .store .. => "Store"
  | .timeout .. => "Timeout"
  | .dialect .. => "DialectMismatch"
  | .decode e => e.label
  | .unavailable .. => "Unavailable"

/-- Whether the same query may be answered when it is asked again. -/
def retryable : FetchError → Bool
  | .store _ _ mayRetry => mayRetry
  | .timeout .. | .unavailable .. => true
  | .dialect .. | .decode _ => false

/-- The backend that failed; a row that cannot be decoded is no backend's failure. -/
def backend? : FetchError → Option Backend
  | .store b .. | .timeout b _ | .unavailable b _ => some b
  | .dialect _ executor => some executor
  | .decode _ => none

/-- A pooled connection's failure, seen by whoever asked the query. -/
def ofPool (b : Backend) : PoolError → FetchError
  | .columnNotFound column => .decode (.missingColumn column)
  | .closed => .unavailable b "connection pool closed"
  | e => .store b e.message e.transient

def ofHttp (e : HttpError) : FetchError := .store .clickhouse e.message e.transient

/-- A failure of the embedded column store, which is final. -/
def ofDuckdb (reason : String) : FetchError := .store .duckdb reason false

end FetchError

end RequestLog.Store
