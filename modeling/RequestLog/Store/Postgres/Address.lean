import RequestLog.Config.Settings
import RequestLog.Store.Error
import RequestLog.Text.Quoted
import RequestLog.Text.Url

/-!
# Where a PostgreSQL server is

The address of a server names a database and a user, and pairs behind it may name
them again or add options for the session. A limit on the time of a statement is
one more option, and comes last.

The bounds of the pool are settings; zero asks for the default.
-/

namespace RequestLog.Store.Postgres

structure Address where
  host : String := "localhost"
  port : Nat := 5432
  user : Option String := none
  password : Option String := none
  database : Option String := none
  application : Option String := none
  /-- Options of the session, in the form of a command line. -/
  options : Option String := none
  deriving DecidableEq, Inhabited

def Address.withOptions (a : Address) (more : String) : Address :=
  { a with options := some (match a.options with
      | some given => s!"{given} {more}"
      | none => more) }

/-- A text in which no blank ends the option that it belongs to. -/
def unbroken (s : String) : String :=
  String.ofList (s.toList.flatMap fun c => if c = ' ' || c = '\\' then ['\\', c] else [c])

def Address.withOption (a : Address) (name value : String) : Address :=
  let given := a.options.getD ""
  let gap := if given.isEmpty then "" else " "
  let option := unbroken s!"{name}={value}"
  { a with options := some s!"{given}{gap}-c {option}" }

def encryptionModes : List String :=
  ["disable", "allow", "prefer", "require", "verify-ca", "verify-full"]

/-- The name inside of `options[…]`. -/
def optionName? (key : String) : Option String :=
  (Text.after? "options[".toList key.toList).bind fun s =>
    if s.getLast? = some ']' then some (String.ofList s.dropLast) else none

/-- A number below a bound; of a text that is none, the first wrong place decides. -/
def readCount (bound : Nat) (s : String) : Except PoolError Nat :=
  match s.toList with
  | [] => .error (.configuration "cannot parse integer from empty string")
  | '+' :: d :: rest => go 0 (d :: rest)
  | cs => go 0 cs
where
  go (n : Nat) : List Char → Except PoolError Nat
    | [] => .ok n
    | c :: rest =>
        if !c.isDigit then .error (.configuration "invalid digit found in string")
        else
          let n := 10 * n + Decimal.digitValue c
          if n < bound then go n rest
          else .error (.configuration "number too large to fit in target type")

/-- Whether a text is a host given by four bytes. -/
def isNumericHost (s : String) : Bool :=
  let parts := Text.splitAt '.' s.toList
  let isByte (ds : List Char) : Bool :=
    !ds.isEmpty && ds.all Char.isDigit && Decimal.spelled ds < 256
      && (ds.length = 1 || ds.head? ≠ some '0')
  parts.length = 4 && parts.all isByte

/-- Takes over a pair behind an address, or says what is wrong with it. -/
def Address.put (a : Address) (key value : String) : Except PoolError Address :=
  match key with
  | "sslmode" | "ssl-mode" =>
      if encryptionModes.contains value.toLower then .ok a
      else .error <| .configuration <| PoolError.message <| .configuration <|
        "unknown value " ++ Text.quoted value ++ " for `ssl_mode`"
  | "host" => .ok { a with host := value }
  | "hostaddr" =>
      if isNumericHost value || value.contains ':' then .ok { a with host := value }
      else .error (.configuration "invalid IP address syntax")
  | "port" => (readCount 65536 value).map fun port => { a with port }
  | "statement-cache-capacity" => (readCount (Decimal.twos 64) value).map fun _ => a
  | "dbname" => .ok { a with database := some value }
  | "user" => .ok { a with user := some value }
  | "password" => .ok { a with password := some value }
  | "application_name" => .ok { a with application := some value }
  | "options" => .ok (a.withOptions value)
  | key =>
      match optionName? key with
      | some name => .ok (a.withOption name value)
      | none => .ok a

def databaseIn (path : String) : Option String :=
  let name := path.toList.dropWhile (· = '/')
  if name.isEmpty then none else some (String.ofList name)

def Address.ofUrl (u : Text.Url) : Except PoolError Address :=
  let a : Address := { user := u.user, password := u.password, database := databaseIn u.path }
  let a := if u.host.isEmpty then a else { a with host := u.host }
  let a := { a with port := u.port.getD a.port }
  u.query.foldlM (fun a (key, value) => a.put key value) a

def Address.parse (text : String) : Except PoolError Address :=
  match Text.Url.parse text with
  | .error f => .error (.configuration f.message)
  | .ok u => Address.ofUrl u

/-! ## Settings -/

structure Pool where
  maxConnections : Nat
  minConnections : Nat
  acquireTimeout : Nat
  idleTimeout : Nat
  maxLifetime : Nat
  deriving DecidableEq

def orDefault (given default : Nat) : Nat := if given = 0 then default else given

def poolOf (s : Config.PostgresSettings) : Pool :=
  let d := Config.postgresDefaults
  { maxConnections := orDefault s.maxConnections d.maxConnections
    minConnections := orDefault s.minConnections d.minConnections
    acquireTimeout := orDefault s.acquireTimeout d.acquireTimeout
    idleTimeout := orDefault s.idleTimeout d.idleTimeout
    maxLifetime := orDefault s.maxLifetime d.maxLifetime }

/-- The address in the settings, with the limit on the time of a statement. -/
def addressOf (s : Config.PostgresSettings) : Except OpenError Address :=
  if s.url.isEmpty then .error (.config "PostgreSQL URL is required")
  else
    match Address.parse s.url with
    | .error e => .error (.config s!"Invalid PostgreSQL URL: {e.message}")
    | .ok a =>
        if s.statementTimeout = 0 then .ok a
        else .ok (a.withOption "statement_timeout" s!"{Nat.repr s.statementTimeout}s")

end RequestLog.Store.Postgres
