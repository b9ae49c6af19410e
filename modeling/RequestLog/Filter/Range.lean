import RequestLog.Filter.Error

/-!
# Time ranges

A range of instants includes both of its ends, and its start is never after its
end: a range that would be inverted cannot be built.
-/

namespace RequestLog

structure TimeRange where
  start : Instant
  stop : Instant
  ordered : start.le stop = true

namespace TimeRange

def ofEnds (start stop : Instant) : Except FilterError TimeRange :=
  if h : start.le stop = true then .ok ⟨start, stop, h⟩
  else .error (.invalidTimeRange start stop)

def bound (table : Table) (op : Operator) (t : Instant) : Filter :=
  .leaf ⟨table, .createdAt, op, .timestamp t⟩

def filter (r : TimeRange) (table : Table) : Filter :=
  (bound table .greaterOrEqual r.start).and (bound table .lessOrEqual r.stop)

end TimeRange

end RequestLog
