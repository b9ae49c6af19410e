import RequestLog.Field.Name
import RequestLog.Schema.Basic

/-!
# The tables of each layout

A row store keeps requests, responses and properties apart, and what belongs to
a request goes with it when it is deleted. A column store keeps everything about
a request in one row, and everything about a property in another.

Besides, every store has a table with at most one row, which records the version
of the schema that was set up.
-/

namespace RequestLog.Schema

/-- The version of the schema that is described here. -/
def currentVersion : Int := 1

def versionTableName : String := "schema_version"

def slotColumn : StoredColumn := { name := "id", type := .slot }
def versionColumn : StoredColumn := { name := "version", type := .version }
def appliedColumn : StoredColumn := { name := "applied_at", type := .instant }

/-- The table of the version; a row store also holds the number of its row to one. -/
def versionTable : Backend → StoredTable
  | .sqlite | .postgres =>
      { name := versionTableName
        columns :=
          [{ slotColumn with key := true, only := some 1 }, versionColumn, appliedColumn] }
  | .duckdb =>
      { name := versionTableName
        columns := [{ slotColumn with key := true }, versionColumn, appliedColumn] }
  | .clickhouse =>
      { name := versionTableName
        columns := [slotColumn, versionColumn, appliedColumn]
        engine := some
          { name := s!"ReplacingMergeTree({appliedColumn.name})", order := slotColumn.name } }

/-! ## Columns -/

def storedType : Kind → StoredType
  | .timestamp => .instant
  | .bool | .int | .float => .count
  | .text => .text

/-- A column that every row has, under its logical name. -/
def required (c : Column) : StoredColumn := { name := c.name, type := storedType c.kind }

/-- A column that a row may lack, under its logical name. -/
def optional (c : Column) : StoredColumn := { required c with nullable := true }

def ownerColumn : StoredColumn :=
  { required .requestId with references := some ⟨"request", "id"⟩ }

def idColumn : StoredColumn := { required .id with key := true }

/-! ## Row stores -/

def requestTable : StoredTable where
  name := "request"
  columns :=
    [idColumn, required .organizationId, required .createdAt, optional .model,
     optional .userId, optional .path]

def responseTable : StoredTable where
  name := "response"
  columns :=
    [idColumn, ownerColumn, required .createdAt, optional .status, optional .latency,
     optional .promptTokens, optional .completionTokens, optional .model]

def propertiesTable : StoredTable where
  name := "properties"
  columns :=
    [ownerColumn, required .organizationId, required .createdAt, required .key,
     required .value]
  key := ["request_id", "key"]

def rowSchema (b : Backend) : List Definition :=
  [.table (versionTable b),
   .table requestTable,
   .index ⟨"idx_request_org_created", "request", ["organization_id", "created_at"]⟩,
   .table responseTable,
   .index ⟨"idx_response_request", "response", ["request_id"]⟩,
   .table propertiesTable,
   .index ⟨"idx_properties_org_key", "properties", ["organization_id", "key"]⟩]

/-! ## Column stores -/

def byMonth (order : String) : Engine where
  name := "MergeTree"
  partition := some "toYYYYMM(created_at)"
  order := order

def engineOf (b : Backend) (e : Engine) : Option Engine :=
  if b = .clickhouse then some e else none

def requestLogTable (b : Backend) : StoredTable where
  name := "request_response_log"
  columns :=
    [required .requestId, required .organizationId, required .createdAt, optional .model,
     optional .userId, optional .path, optional .status, optional .latency,
     optional .promptTokens, optional .completionTokens]
  engine := engineOf b (byMonth "(organization_id, created_at, request_id)")

def propertyLogTable (b : Backend) : StoredTable where
  name := "property_with_response"
  columns :=
    [required .requestId, required .organizationId, required .createdAt,
     { name := "property_key", type := .text }, { name := "property_value", type := .text },
     optional .model, optional .userId, optional .status, optional .latency]
  engine := engineOf b (byMonth "(organization_id, property_key, created_at, request_id)")

def columnSchema (b : Backend) : List Definition :=
  [.table (versionTable b), .table (requestLogTable b), .table (propertyLogTable b)]

/-! ## Schemas -/

def schema (b : Backend) : List Definition :=
  match b.family with
  | .row => rowSchema b
  | .column => columnSchema b

/-- The texts that set a backend up, in the order in which they are run. -/
def statements (b : Backend) : List String :=
  match b with
  | .clickhouse => (schema b).map (·.text b)
  | _ => [script b (schema b)]

end RequestLog.Schema
