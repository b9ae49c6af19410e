/-!
# Tables, columns and kinds

A filter speaks about logical tables and columns. Their names are the same for
every store; which physical column stands behind one depends on how the store
lays its tables out and is settled in `RequestLog.Field.Registry`. The kind of a
column depends on the column alone.
-/

namespace RequestLog

inductive Table where
  | request
  | response
  | properties
  | requestResponseLog
  | propertyWithResponse
  deriving DecidableEq, BEq, Inhabited

namespace Table

def all : List Table :=
  [.request, .response, .properties, .requestResponseLog, .propertyWithResponse]

def name : Table → String
  | .request => "request"
  | .response => "response"
  | .properties => "properties"
  | .requestResponseLog => "request_response_log"
  | .propertyWithResponse => "property_with_response"

def names : List String := all.map name

def ofName? (s : String) : Option Table := all.find? (·.name == s)

end Table

inductive Column where
  | id
  | requestId
  | organizationId
  | createdAt
  | model
  | userId
  | path
  | status
  | latency
  | promptTokens
  | completionTokens
  | key
  | value
  deriving DecidableEq, BEq, Inhabited

inductive Kind where
  | bool
  | int
  | float
  | text
  | timestamp
  deriving DecidableEq, BEq, Inhabited

namespace Kind

def all : List Kind := [.bool, .int, .float, .text, .timestamp]

def name : Kind → String
  | .bool => "bool"
  | .int => "int"
  | .float => "float"
  | .text => "text"
  | .timestamp => "timestamp"

def ofName? (s : String) : Option Kind := all.find? (·.name == s)

end Kind

namespace Column

def all : List Column :=
  [.id, .requestId, .organizationId, .createdAt, .model, .userId, .path, .status,
   .latency, .promptTokens, .completionTokens, .key, .value]

def name : Column → String
  | .id => "id"
  | .requestId => "request_id"
  | .organizationId => "organization_id"
  | .createdAt => "created_at"
  | .model => "model"
  | .userId => "user_id"
  | .path => "path"
  | .status => "status"
  | .latency => "latency"
  | .promptTokens => "prompt_tokens"
  | .completionTokens => "completion_tokens"
  | .key => "key"
  | .value => "value"

def names : List String := all.map name

def ofName? (s : String) : Option Column := all.find? (·.name == s)

def kind : Column → Kind
  | .createdAt => .timestamp
  | .status | .latency | .promptTokens | .completionTokens => .int
  | .id | .requestId | .organizationId | .model | .userId | .path | .key | .value =>
      .text

end Column

end RequestLog
