import RequestLog.Filter.Range
import RequestLog.Filter.Value

/-!
# Request bodies

A request states a time range and, if it wants, a filter. Its text is read in
two passes. The first looks at nothing but the shape: which keys are there, which
names, which types. The second gives the parts their meaning, the time range
before the filter, and a filter's leaves from left to right. A text too long to
be a request is refused before either.
-/

namespace RequestLog

structure RequestBody where
  filter : Filter
  range : TimeRange

namespace RequestBody

/-- The most bytes a request may have. -/
def maxBytes : Nat := 65536

/-- The deepest filter a request may have. -/
def maxDepth : Nat := 32

/-! ## The shape of a request -/

inductive Moment where
  | millis (ms : Int)
  | text (s : String)

structure Wire where
  filter : Option (FilterOf Json) := none
  range : Option (Moment × Moment) := none

open Json

def tableChoice : Choice Table := .constants Table.names Table.ofName?

def columnChoice : Choice Column := .constants Column.names Column.ofName?

def operatorChoice : Choice Operator := .constants Operator.names Operator.ofName?

def connectiveChoice : Choice Connective :=
  .constants Connective.names Connective.ofName?

structure LeafDraft where
  table : Option Table := none
  column : Option Column := none
  operator : Option Operator := none
  value : Option Json := none

def leafRecord : Record LeafDraft where
  name := "LeafWire"
  required := 3
  strict := true
  slots := [
    ⟨"table", fun room t d =>
      (tableChoice.decode room t).map fun v => { d with table := some v }⟩,
    ⟨"column", fun room t d =>
      (columnChoice.decode room t).map fun v => { d with column := some v }⟩,
    ⟨"operator", fun room t d =>
      (operatorChoice.decode room t).map fun v => { d with operator := some v }⟩,
    ⟨"value", fun room t d =>
      (decodeJson room t).map fun v => { d with value := some v }⟩]

def decodeLeaf : Decoder (LeafOf Json) := fun room t => do
  let d ← leafRecord.decode {} room t
  let table ← require "table" d.table
  let column ← require "column" d.column
  let operator ← require "operator" d.operator
  return ⟨table, column, operator, d.value.getD .null⟩

structure BranchDraft where
  left : Option (FilterOf Json) := none
  right : Option (FilterOf Json) := none
  operator : Option Connective := none

def branchRecord (node : Decoder (FilterOf Json)) : Record BranchDraft where
  name := "BranchWire"
  required := 3
  strict := true
  slots := [
    ⟨"left", fun room t d => (node room t).map fun v => { d with left := some v }⟩,
    ⟨"right", fun room t d => (node room t).map fun v => { d with right := some v }⟩,
    ⟨"operator", fun room t d =>
      (connectiveChoice.decode room t).map fun v => { d with operator := some v }⟩]

def decodeBranch (node : Decoder (FilterOf Json)) : Decoder (FilterOf Json) :=
  fun room t => do
    let d ← (branchRecord node).decode {} room t
    let left ← require "left" d.left
    let right ← require "right" d.right
    let operator ← require "operator" d.operator
    return .branch left right operator

def nodeNames : List String := ["leaf", "branch", "all"]

/-- A node whose branches hold nodes that `inner` reads. -/
def nodeChoice (inner : Decoder (FilterOf Json)) : Choice (FilterOf Json) where
  names := nodeNames
  plain
    | "all" => some (.ok .all)
    | "leaf" | "branch" => some payloadDue
    | _ => none
  keyed
    | "all" => some (decodeUnit .all)
    | "leaf" => some fun room t => (decodeLeaf room t).map .leaf
    | "branch" => some (decodeBranch inner)
    | _ => none

/-- Nodes nested at most `levels` deep. A level takes two brackets, a name's and a
branch's, so as many levels as brackets are always enough. -/
def decodeNode : Nat → Decoder (FilterOf Json)
  | 0 => (nodeChoice fun _ _ => .error .nestingLimit).decode
  | levels + 1 => (nodeChoice (decodeNode levels)).decode

/-- An instant is an integer or a text; which of them is settled by what stands there. -/
def decodeMoment : Decoder Moment := fun room t => do
  match ← decodeJson room t with
  | .number n =>
      match n.int64? with
      | some ms => return .millis ms
      | none => throw (.noVariant "InstantWire")
  | .text s => return .text s
  | _ => throw (.noVariant "InstantWire")

structure RangeDraft where
  start : Option Moment := none
  stop : Option Moment := none

def rangeRecord : Record RangeDraft where
  name := "TimeFilterWire"
  required := 2
  strict := true
  slots := [
    ⟨"start", fun room t d =>
      (decodeMoment room t).map fun v => { d with start := some v }⟩,
    ⟨"end", fun room t d =>
      (decodeMoment room t).map fun v => { d with stop := some v }⟩]

def decodeRange : Decoder (Moment × Moment) := fun room t => do
  let d ← rangeRecord.decode {} room t
  let start ← require "start" d.start
  let stop ← require "end" d.stop
  return (start, stop)

def bodyRecord : Record Wire where
  name := "BodyWire"
  required := 0
  strict := true
  slots := [
    ⟨"filter", fun room t d =>
      (decodeOption (decodeNode nestingRoom) room t).map
        fun v => { d with filter := v }⟩,
    ⟨"timeFilter", fun room t d =>
      (decodeOption decodeRange room t).map fun v => { d with range := v }⟩]

def decodeWire (text : String) : Except Fault Wire :=
  decodeWhole (bodyRecord.decode {}) text

/-! ## The meaning of a request -/

def Moment.resolve (field : String) : Moment → Except FilterError Instant
  | .millis ms =>
      match Instant.ofMillis? ms with
      | some t => .ok t
      | none => .error (.invalidShape s!"{field}: timestamp out of range")
  | .text s =>
      match Instant.read s with
      | .ok t => .ok t
      | .error e => .error (.invalidShape s!"{field}: {e.message}")

def checkLevel (level : Nat) : Except FilterError Unit :=
  if maxDepth < level then
    .error (.invalidShape s!"filter nesting exceeds {maxDepth} levels")
  else .ok ()

/-- The tree with its operands read, its root being at a given level. -/
def resolveFilter : Nat → FilterOf Json → Except FilterError Filter
  | level, .all => do
      checkLevel level
      return .all
  | level, .leaf l => do
      checkLevel level
      let value ← Filter.operand (fieldName l.table l.column) l.column.kind l.value
      return .leaf ⟨l.table, l.column, l.operator, value⟩
  | level, .branch left right op => do
      checkLevel level
      let left ← resolveFilter (level + 1) left
      let right ← resolveFilter (level + 1) right
      return .branch left right op

def ofWire (w : Wire) : Except FilterError RequestBody := do
  match w.range with
  | none => throw .missingTimeFilter
  | some (start, stop) =>
      let start ← start.resolve "timeFilter.start"
      let stop ← stop.resolve "timeFilter.end"
      let range ← TimeRange.ofEnds start stop
      let filter ← match w.filter with
        | none => pure .all
        | some node => resolveFilter 1 node
      return ⟨filter, range⟩

def parse (text : String) : Except FilterError RequestBody :=
  if maxBytes < text.utf8ByteSize then
    .error (.invalidShape s!"body exceeds maximum size of {maxBytes} bytes")
  else
    match decodeWire text with
    | .error f => .error (.invalidShape f.message)
    | .ok w => ofWire w

/-- The request as one filter over a table: its range and what it asks for. -/
def filterOver (b : RequestBody) (table : Table) : Filter :=
  (b.range.filter table).and b.filter

end RequestBody

end RequestLog
