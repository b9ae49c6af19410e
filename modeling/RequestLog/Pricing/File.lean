import RequestLog.Json.Decode
import RequestLog.Pricing.Table

/-!
# Price lists as data

A price list is an array of rules, each with a matcher, the costs of a token and
optionally the size of the model's window. A list has no fallback of its own: a
model that it does not mention costs nothing.
-/

namespace RequestLog.Pricing

open Json

/-- The operator with two words for its name goes by either spelling. -/
def matchOperatorNames : List String :=
  ["equals", "startsWith", "starts_with", "includes"]

def matchOperatorChoice : Choice MatchOperator :=
  .constants matchOperatorNames fun
    | "equals" => some .equals
    | "startsWith" | "starts_with" => some .startsWith
    | "includes" => some .includes
    | _ => none

structure MatcherDraft where
  operator : Option MatchOperator := none
  value : Option String := none

def matcherRecord : Record MatcherDraft where
  name := "ModelMatcher"
  required := 2
  strict := true
  slots := [
    ⟨"operator", fun room t d =>
      (matchOperatorChoice.decode room t).map fun v => { d with operator := some v }⟩,
    ⟨"value", fun room t d =>
      (decodeText "a string" room t).map fun v => { d with value := some v }⟩]

def decodeMatcher : Decoder Matcher := fun room t => do
  let d ← matcherRecord.decode {} room t
  let operator ← require "operator" d.operator
  let value ← require "value" d.value
  return ⟨operator, value⟩

structure CostDraft where
  prompt : Option Float := none
  completion : Option Float := none

def costRecord : Record CostDraft where
  name := "CostWire"
  required := 2
  strict := true
  slots := [
    ⟨"prompt_token", fun room t d =>
      (decodeFloat room t).map fun v => { d with prompt := some v }⟩,
    ⟨"completion_token", fun room t d =>
      (decodeFloat room t).map fun v => { d with completion := some v }⟩]

def decodeCost : Decoder (Float × Float) := fun room t => do
  let d ← costRecord.decode {} room t
  let prompt ← require "prompt_token" d.prompt
  let completion ← require "completion_token" d.completion
  return (prompt, completion)

structure RuleDraft where
  matcher : Option Matcher := none
  cost : Option (Float × Float) := none
  window : Option Nat := none

def ruleRecord : Record RuleDraft where
  name := "RuleWire"
  required := 2
  strict := true
  slots := [
    ⟨"model", fun room t d =>
      (decodeMatcher room t).map fun v => { d with matcher := some v }⟩,
    ⟨"cost", fun room t d =>
      (decodeCost room t).map fun v => { d with cost := some v }⟩,
    ⟨"max_window_size", fun room t d =>
      (decodeUnsigned 64 room t).map fun v => { d with window := some v }⟩]

def decodeRule : Decoder Rule := fun room t => do
  let d ← ruleRecord.decode {} room t
  let matcher ← require "model" d.matcher
  let (prompt, completion) ← require "cost" d.cost
  return ⟨matcher, ⟨prompt, completion, d.window.getD 0⟩⟩

def PriceTable.parse (text : String) : Except PricingError PriceTable :=
  match decodeWhole (decodeList decodeRule) text with
  | .error f => .error (.unreadable f.message)
  | .ok rules => PriceTable.ofRules rules .free

end RequestLog.Pricing
