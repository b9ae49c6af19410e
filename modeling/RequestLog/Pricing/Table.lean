import RequestLog.Decimal.Layout
import RequestLog.Text.Search

/-!
# Price tables

A price table is an ordered list of rules. The first rule whose matcher fits the
name of a model gives its prices; when none fits, the table's fallback does. A
table is only built from rules that can be charged by: a matcher that is not
empty, and costs that are finite and not negative.
-/

namespace RequestLog.Pricing

/-- How a rule's value is compared with the name of a model; case counts. -/
inductive MatchOperator where
  | equals
  | startsWith
  | includes
  deriving DecidableEq, BEq, Inhabited

namespace MatchOperator

def name : MatchOperator → String
  | .equals => "equals"
  | .startsWith => "starts_with"
  | .includes => "includes"

def all : List MatchOperator := [.equals, .startsWith, .includes]

def ofName? (s : String) : Option MatchOperator := all.find? (·.name == s)

end MatchOperator

structure Matcher where
  operator : MatchOperator
  value : String
  deriving DecidableEq

def Matcher.matches (m : Matcher) (model : String) : Bool :=
  match m.operator with
  | .equals => model == m.value
  | .startsWith => Text.startsWith m.value model
  | .includes => Text.occurs m.value model

/-- What a model costs for each token, and how many tokens it takes. -/
structure Facts where
  promptCost : Float
  completionCost : Float
  window : Nat

namespace Facts

def free : Facts := ⟨0, 0, 0⟩

/-- The cost of a request; a negative count counts as none. -/
def cost (f : Facts) (prompt completion : Int) : Float :=
  f.promptCost * Decimal.ofInt (max prompt 0)
    + f.completionCost * Decimal.ofInt (max completion 0)

def chargeable (x : Float) : Bool := x.isFinite && !(x < 0)

def fault? (f : Facts) : Option String :=
  let unsound (what : String) := s!"{what} must be a finite non-negative number"
  if !chargeable f.promptCost then some (unsound "prompt token cost")
  else if !chargeable f.completionCost then some (unsound "completion token cost")
  else none

end Facts

structure Rule where
  matcher : Matcher
  facts : Facts

def Rule.fault? (r : Rule) : Option String :=
  if r.matcher.value.isEmpty then some "matcher value is empty" else r.facts.fault?

inductive PricingError where
  | unreadable (reason : String)
  | invalidRule (index : Nat) (reason : String)
  | invalidFallback (reason : String)
  | file (reason : String)
  deriving DecidableEq

def PricingError.message : PricingError → String
  | .unreadable reason => s!"Failed to parse pricing data: {reason}"
  | .invalidRule index reason => s!"Invalid pricing rule #{index}: {reason}"
  | .invalidFallback reason => s!"Invalid fallback pricing: {reason}"
  | .file reason => s!"IO error: {reason}"

def PricingError.label : PricingError → String
  | .unreadable _ => "ParseError"
  | .invalidRule .. => "InvalidRule"
  | .invalidFallback _ => "InvalidFallback"
  | .file _ => "Io"

structure PriceTable where
  rules : List Rule
  fallback : Facts
  rulesSound : ∀ r ∈ rules, r.fault? = none
  fallbackSound : fallback.fault? = none

/-- The first unsound rule, with its place counted from a given number. -/
def firstFault? (index : Nat) : List Rule → Option (Nat × String)
  | [] => none
  | r :: rest =>
      match r.fault? with
      | some reason => some (index, reason)
      | none => firstFault? (index + 1) rest

theorem sound_of_firstFault? {index : Nat} {rules : List Rule}
    (h : firstFault? index rules = none) : ∀ r ∈ rules, r.fault? = none := by
  induction rules generalizing index with
  | nil => simp
  | cons r rest ih =>
    simp only [firstFault?] at h
    split at h
    · simp at h
    · next hr =>
      intro r' hr'
      rcases List.mem_cons.1 hr' with rfl | hr'
      · exact hr
      · exact ih h r' hr'

inductive MatchType where
  | exact
  | leading
  | substring
  | fallback
  deriving DecidableEq

def MatchType.name : MatchType → String
  | .exact => "exact"
  | .leading => "prefix"
  | .substring => "substring"
  | .fallback => "fallback"

def MatchOperator.matchType : MatchOperator → MatchType
  | .equals => .exact
  | .startsWith => .leading
  | .includes => .substring

/-- The prices of a model, and the place of the rule that gave them. -/
structure Resolved where
  facts : Facts
  matchType : MatchType
  ruleIndex : Option Nat

namespace PriceTable

/-- The table of some rules; an unsound fallback is found before an unsound rule. -/
def ofRules (rules : List Rule) (fallback : Facts) : Except PricingError PriceTable :=
  match hf : fallback.fault? with
  | some reason => .error (.invalidFallback reason)
  | none =>
      match hr : firstFault? 0 rules with
      | some (index, reason) => .error (.invalidRule index reason)
      | none => .ok ⟨rules, fallback, sound_of_firstFault? hr, hf⟩

/-- The first rule that fits a model, with its place counted from a given number. -/
def firstMatch? (model : String) (index : Nat) : List Rule → Option (Nat × Rule)
  | [] => none
  | r :: rest =>
      if r.matcher.matches model then some (index, r)
      else firstMatch? model (index + 1) rest

def resolve (t : PriceTable) (model : String) : Resolved :=
  match firstMatch? model 0 t.rules with
  | some (index, r) => ⟨r.facts, r.matcher.operator.matchType, some index⟩
  | none => ⟨t.fallback, .fallback, none⟩

def cost (t : PriceTable) (model : String) (prompt completion : Int) : Float :=
  (t.resolve model).facts.cost prompt completion

end PriceTable

end RequestLog.Pricing
