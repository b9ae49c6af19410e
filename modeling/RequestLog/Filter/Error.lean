import RequestLog.Backend
import RequestLog.Filter.Basic

/-!
# What can be wrong with a filter

Every cause is the caller's: none goes away when the same request is tried again.
-/

namespace RequestLog

inductive FilterError where
  | unknownField (family : Family) (table : Table) (column : Column)
  | typeMismatch (field expected actual : String)
  | unsupportedOperator (field : String) (operator : Operator) (kind : Kind)
  | invalidTimeRange (start stop : Instant)
  | missingTimeFilter
  | invalidShape (reason : String)
  | invalidTenant
  deriving DecidableEq, BEq, Inhabited

def FilterError.message : FilterError → String
  | .unknownField family table column =>
      s!"Unknown field {fieldName table column} for the {family.name} store"
  | .typeMismatch field expected actual =>
      s!"Type mismatch on {field}: expected {expected}, got {actual}"
  | .unsupportedOperator field operator kind =>
      s!"Operator {operator.name} is not supported on {kind.name} field {field}"
  | .invalidTimeRange start stop =>
      s!"Invalid time range: start {start.message} is after end {stop.message}"
  | .missingTimeFilter => "Missing time filter"
  | .invalidShape reason => s!"Invalid filter shape: {reason}"
  | .invalidTenant => "Invalid tenant identifier"

def FilterError.label : FilterError → String
  | .unknownField .. => "UnknownField"
  | .typeMismatch .. => "TypeMismatch"
  | .unsupportedOperator .. => "UnsupportedOperator"
  | .invalidTimeRange .. => "InvalidTimeRange"
  | .missingTimeFilter => "MissingTimeFilter"
  | .invalidShape _ => "InvalidFilterShape"
  | .invalidTenant => "InvalidTenant"

end RequestLog
