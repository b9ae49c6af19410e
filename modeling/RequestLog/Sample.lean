import RequestLog.Instant.Calendar
import RequestLog.Store.Duckdb.Client
import RequestLog.Store.Sqlite.Client

/-!
# A small log

Five requests of two organizations, to fill an empty store with. In January 2024
two of them are requests of the first organization for one model; each of the
others misses that in one way, by its model, its month or its organization.
-/

namespace RequestLog.Sample

structure Entry where
  id : String
  organization : String
  created : Instant
  model : String
  user : String
  status : Int
  latency : Int
  promptTokens : Int
  completionTokens : Int
  environment : String

def path : String := "/v1/chat/completions"

/-- The key of the only property that a request has. -/
def propertyKey : String := "environment"

def noon (month day : Nat) : Instant :=
  ⟨(Instant.Date.toDays ⟨2024, month, day⟩) * 86400 + 12 * 3600, 0⟩

def entries : List Entry :=
  [⟨"req_1", "org_1", noon 1 10, "gpt-4", "user_a", 200, 100, 1000, 500, "prod"⟩,
   ⟨"req_2", "org_1", noon 1 20, "gpt-4", "user_b", 200, 300, 2000, 1000, "dev"⟩,
   ⟨"req_3", "org_1", noon 1 15, "gpt-3.5-turbo", "user_a", 200, 50, 1000, 1000, "prod"⟩,
   ⟨"req_4", "org_1", noon 2 5, "gpt-4", "user_c", 500, 900, 10, 0, "prod"⟩,
   ⟨"req_5", "org_2", noon 1 12, "gpt-4", "user_z", 200, 700, 5000, 5000, "prod"⟩]

/-! ## Row store -/

open Relational (Statement Value)

/-- The rows of an entry: a request, its response, and its property. -/
def statements (e : Entry) : List Statement :=
  let created : Value := .int e.created.micros
  [.insert "request"
    [("id", .text e.id), ("organization_id", .text e.organization), ("created_at", created),
     ("model", .text e.model), ("user_id", .text e.user), ("path", .text path)],
   .insert "response"
    [("id", .text s!"resp_{e.id}"), ("request_id", .text e.id), ("created_at", created),
     ("status", .int e.status), ("latency", .int e.latency),
     ("prompt_tokens", .int e.promptTokens),
     ("completion_tokens", .int e.completionTokens), ("model", .text e.model)],
   .insert "properties"
    [("request_id", .text e.id), ("organization_id", .text e.organization),
     ("created_at", created), ("key", .text propertyKey), ("value", .text e.environment)]]

variable {m : Type → Type} [Monad m]

def fillRows (s : Store.Sqlite.Handle m) : Store.Opening m Unit :=
  Store.Sqlite.opening <|
    (entries.flatMap statements).forM fun st => do
      let _ ← s.run st

/-! ## Column store -/

open Store.Duckdb (Argument)

def requestText : String :=
  "INSERT INTO request_response_log (request_id, organization_id, created_at, model, "
    ++ "user_id, path, status, latency, prompt_tokens, completion_tokens)\n"
    ++ "             VALUES (?, ?, make_timestamp(?), ?, ?, ?, ?, ?, ?, ?)"

def propertyText : String :=
  "INSERT INTO property_with_response (request_id, organization_id, created_at, "
    ++ "property_key, property_value, model, user_id, status, latency)\n"
    ++ "             VALUES (?, ?, make_timestamp(?), ?, ?, ?, ?, ?, ?)"

/-- The rows of an entry: its request, and its property. -/
def insertions (e : Entry) : List (String × List Argument) :=
  let created : Argument := .bigint e.created.micros
  [(requestText,
    [.varchar e.id, .varchar e.organization, created, .varchar e.model, .varchar e.user,
     .varchar path, .bigint e.status, .bigint e.latency, .bigint e.promptTokens,
     .bigint e.completionTokens]),
   (propertyText,
    [.varchar e.id, .varchar e.organization, created, .varchar propertyKey,
     .varchar e.environment, .varchar e.model, .varchar e.user, .bigint e.status,
     .bigint e.latency])]

/-- Inserts all entries, up to the first row that is refused. -/
def fillColumns (s : Store.Duckdb.Handle m) (clock : Clock m) :
    ExceptT Store.FetchError m Unit :=
  s.run clock <|
    (entries.flatMap insertions).forM fun (text, args) => do
      let _ ← s.ask text args

end RequestLog.Sample
