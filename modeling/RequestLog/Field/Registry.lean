import RequestLog.Backend
import RequestLog.Field.Name
import RequestLog.Sql.Expr

/-!
# Where logical columns are stored

For each layout the registry says which physical column stands behind a logical
one, and from which relation a logical table is read. A row store keeps requests,
responses and properties apart and joins them for the two wide tables; a column
store has only the wide ones.

A relation also provides the columns of the tables it joins, so a filter over a
wide table may name the narrow ones. What the join can leave empty is nullable.
-/

namespace RequestLog

structure Field where
  column : Sql.ColumnRef
  kind : Kind
  nullable : Bool
  deriving DecidableEq

def Field.identifier (f : Field) : String := f.column.text

structure Source where
  relation : Sql.Relation
  /-- The logical tables whose columns the relation has. -/
  provides : List Table

namespace Registry

/-- A column of a table, of the kind its logical column has. -/
def field (table column : String) (c : Column) (nullable : Bool) : Option Field :=
  some ⟨⟨table, column⟩, c.kind, nullable⟩

def required (table : String) (c : Column) : Option Field :=
  field table c.name c false

def nullable (table : String) (c : Column) : Option Field :=
  field table c.name c true

def requestField : Column → Option Field
  | .id => required "request" .id
  | .organizationId => required "request" .organizationId
  | .createdAt => required "request" .createdAt
  | .model => nullable "request" .model
  | .userId => nullable "request" .userId
  | .path => nullable "request" .path
  | _ => none

/-- Columns of a response; a request may have none, so all of them are nullable. -/
def responseField : Column → Option Field
  | .id => nullable "response" .id
  | .requestId => nullable "response" .requestId
  | .createdAt => nullable "response" .createdAt
  | .status => nullable "response" .status
  | .latency => nullable "response" .latency
  | .promptTokens => nullable "response" .promptTokens
  | .completionTokens => nullable "response" .completionTokens
  | .model => nullable "response" .model
  | _ => none

def propertiesField : Column → Option Field
  | .requestId => required "properties" .requestId
  | .organizationId => required "properties" .organizationId
  | .createdAt => required "properties" .createdAt
  | .key => required "properties" .key
  | .value => required "properties" .value
  | _ => none

def rowField : Table → Column → Option Field
  | .request, c => requestField c
  | .response, c => responseField c
  | .properties, c => propertiesField c
  | .requestResponseLog, c =>
      match c with
      | .requestId => field "request" "id" .requestId false
      | .organizationId | .createdAt | .model | .userId | .path => requestField c
      | .status | .latency | .promptTokens | .completionTokens => responseField c
      | _ => none
  | .propertyWithResponse, c =>
      match c with
      | .requestId | .organizationId | .key | .value => propertiesField c
      | .createdAt | .model | .userId => requestField c
      | .status | .latency => responseField c
      | _ => none

def columnField : Table → Column → Option Field
  | .requestResponseLog, c =>
      match c with
      | .requestId | .organizationId | .createdAt => required "request_response_log" c
      | .model | .userId | .path | .status | .latency | .promptTokens
      | .completionTokens => nullable "request_response_log" c
      | _ => none
  | .propertyWithResponse, c =>
      match c with
      | .requestId | .organizationId | .createdAt => required "property_with_response" c
      | .key => field "property_with_response" "property_key" .key false
      | .value => field "property_with_response" "property_value" .value false
      | .model | .userId | .status | .latency => nullable "property_with_response" c
      | _ => none
  | _, _ => none

def resolve? : Family → Table → Column → Option Field
  | .row => rowField
  | .column => columnField

/-- Responses beside their request, where there are any. -/
def joinResponse : Sql.Join :=
  ⟨.left, "response", ⟨"response", "request_id"⟩, ⟨"request", "id"⟩⟩

def joinRequest : Sql.Join :=
  ⟨.inner, "request", ⟨"request", "id"⟩, ⟨"properties", "request_id"⟩⟩

def rowSource : Table → Source
  | .request => ⟨⟨"request", []⟩, [.request]⟩
  | .response => ⟨⟨"response", []⟩, [.response]⟩
  | .properties => ⟨⟨"properties", []⟩, [.properties]⟩
  | .requestResponseLog =>
      ⟨⟨"request", [joinResponse]⟩, [.requestResponseLog, .request, .response]⟩
  | .propertyWithResponse =>
      ⟨⟨"properties", [joinRequest, joinResponse]⟩,
        [.propertyWithResponse, .properties, .request, .response]⟩

def source? : Family → Table → Option Source
  | .row, t => some (rowSource t)
  | .column, .requestResponseLog =>
      some ⟨⟨"request_response_log", []⟩, [.requestResponseLog]⟩
  | .column, .propertyWithResponse =>
      some ⟨⟨"property_with_response", []⟩, [.propertyWithResponse]⟩
  | .column, _ => none

end Registry

end RequestLog
