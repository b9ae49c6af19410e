import RequestLog.Filter.Error
import RequestLog.Store.Row

/-!
# Metrics

A metric is one number about the requests of an organization in a time range.
Counts are integers and amounts are doubles. What can go wrong is either the
caller's fault, the store's, or the shape of the store's answer, and a caller is
told no more than which of these it was: only a complaint about the caller's own
filter is passed on in its own words.
-/

namespace RequestLog

inductive Metric where
  | totalRequests
  | activeUsers
  | averageLatency
  | totalCost
  deriving DecidableEq, BEq, Inhabited

namespace Metric

def all : List Metric := [.totalRequests, .activeUsers, .averageLatency, .totalCost]

def name : Metric → String
  | .totalRequests => "total_requests"
  | .activeUsers => "active_users"
  | .averageLatency => "average_latency"
  | .totalCost => "total_cost"

def ofName? (s : String) : Option Metric := all.find? (·.name == s)

def table : Metric → Table
  | .averageLatency => .propertyWithResponse
  | .totalRequests | .activeUsers | .totalCost => .requestResponseLog

/-- The layout of the store that serves the metric. -/
def family : Metric → Family
  | .totalRequests => .row
  | .activeUsers | .averageLatency | .totalCost => .column

def column : Metric → Store.ResultColumn
  | .totalRequests => ⟨"count", .int, false⟩
  | .activeUsers => ⟨"users", .int, false⟩
  | .averageLatency => ⟨"average_latency", .float, false⟩
  | .totalCost => ⟨"total_cost", .float, false⟩

end Metric

inductive MetricValue where
  | count (n : Int)
  | amount (x : Float)

def MetricValue.toJson : MetricValue → Json
  | .count n => .number (.int n)
  | .amount x => .number (.float x)

/-! ## Failures -/

inductive MetricError where
  | filter (e : FilterError)
  | fetch (e : Store.FetchError)
  | unexpectedRows (count : Nat)

inductive ErrorCategory where
  | badRequest
  | unauthorized
  | storeUnavailable
  | timeout
  | internal
  deriving DecidableEq

def ErrorCategory.name : ErrorCategory → String
  | .badRequest => "bad_request"
  | .unauthorized => "unauthorized"
  | .storeUnavailable => "store_unavailable"
  | .timeout => "timeout"
  | .internal => "internal"

def ErrorCategory.title : ErrorCategory → String
  | .badRequest => "BadRequest"
  | .unauthorized => "Unauthorized"
  | .storeUnavailable => "StoreUnavailable"
  | .timeout => "Timeout"
  | .internal => "Internal"

namespace MetricError

def message : MetricError → String
  | .filter e => e.message
  | .fetch e => e.message
  | .unexpectedRows count => s!"Metric query returned {count} rows, expected exactly one"

/-- A store is unavailable only when asking it again may help. -/
def category : MetricError → ErrorCategory
  | .filter .invalidTenant => .unauthorized
  | .filter _ => .badRequest
  | .fetch (.timeout ..) => .timeout
  | .fetch (.unavailable ..) => .storeUnavailable
  | .fetch (.store _ _ mayRetry) => if mayRetry then .storeUnavailable else .internal
  | .fetch (.dialect ..) | .fetch (.decode _) | .unexpectedRows _ => .internal

/-- The words for a caller that is not trusted. -/
def publicMessage (e : MetricError) : String :=
  match e.category with
  | .badRequest => e.message
  | .unauthorized => "Unauthorized"
  | .storeUnavailable => "Store unavailable, retry later"
  | .timeout => "Query timed out"
  | .internal => "Internal error"

end MetricError

end RequestLog
