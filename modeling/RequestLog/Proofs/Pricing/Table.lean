import RequestLog.Pricing.Table
import RequestLog.Proofs.Decimal.Sign
import RequestLog.Proofs.Text.Search

/-!
# Sound price tables and the rule that is taken

Rules are scanned twice from the front: for one that cannot be charged by, when a table is
built, and for one that fits a model, when the table is asked. Both scans end at the first
place where something holds (`FirstAt`), and both count places alike, so the place in a
complaint and the place of the rule that was taken are places in the same list.
-/

namespace RequestLog.Pricing

/-! ## The first place -/

/-- The first place of a list at which something holds, and what stands there. -/
structure FirstAt {α : Type} (p : α → Prop) (xs : List α) (i : Nat) (x : α) : Prop where
  there : xs[i]? = some x
  holds : p x
  least : ∀ j < i, ∀ y, xs[j]? = some y → ¬p y

namespace FirstAt

variable {α β : Type} {p : α → Prop} {q : β → Prop}

theorem head {x : α} {rest : List α} (h : p x) : FirstAt p (x :: rest) 0 x :=
  ⟨rfl, h, fun _ hj => absurd hj (Nat.not_lt_zero _)⟩

theorem tail {x y : α} {rest : List α} {i : Nat} (hx : ¬p x) (h : FirstAt p rest i y) :
    FirstAt p (x :: rest) (i + 1) y := by
  refine ⟨h.there, h.holds, fun j hj z hz => ?_⟩
  cases j with
  | zero =>
      obtain rfl := Option.some.inj hz
      exact hx
  | succ j => exact h.least j (Nat.lt_of_succ_lt_succ hj) z hz

/-- In two lists that go together the places are the same. -/
theorem of_forall₂ {r : α → β → Prop} {xs : List α} {ys : List β} (hall : List.Forall₂ r xs ys)
    (hiff : ∀ x y, r x y → (q y ↔ p x)) {i : Nat} {x : α} (h : FirstAt p xs i x) :
    ∃ y, r x y ∧ FirstAt q ys i y := by
  induction hall generalizing i with
  | nil => cases h.there
  | @cons x₀ y₀ xs ys hr hall ih =>
      cases i with
      | zero =>
          obtain rfl := Option.some.inj h.there
          exact ⟨y₀, hr, .head ((hiff _ _ hr).2 h.holds)⟩
      | succ i =>
          have hx₀ : ¬p x₀ := h.least 0 (Nat.succ_pos i) x₀ rfl
          obtain ⟨y, hy, hfirst⟩ := ih ⟨h.there, h.holds,
            fun j hj z hz => h.least (j + 1) (Nat.succ_lt_succ hj) z hz⟩
          exact ⟨y, hy, hfirst.tail (mt (hiff _ _ hr).1 hx₀)⟩

end FirstAt

/-! ## Rules that can be charged by -/

/-- Costs that are numbers, and no negative ones. -/
def Facts.Sound (f : Facts) : Prop :=
  (∃ q, Decimal.Worth f.promptCost q ∧ 0 ≤ q) ∧ ∃ q, Decimal.Worth f.completionCost q ∧ 0 ≤ q

structure Rule.Sound (r : Rule) : Prop where
  value : r.matcher.value ≠ ""
  facts : r.facts.Sound

theorem Facts.chargeable_iff {x : Float} :
    chargeable x = true ↔ ∃ q, Decimal.Worth x q ∧ 0 ≤ q := by
  rw [Decimal.worth_nonneg_iff, chargeable, Bool.and_eq_true, Bool.not_eq_true',
    decide_eq_false_iff_not]

theorem Facts.fault?_eq_none_iff {f : Facts} : f.fault? = none ↔ f.Sound := by
  rw [Sound, ← chargeable_iff, ← chargeable_iff, fault?]
  cases chargeable f.promptCost <;> cases chargeable f.completionCost <;> simp

theorem Rule.fault?_eq_none_iff {r : Rule} : r.fault? = none ↔ r.Sound := by
  rw [fault?]
  split
  · next hempty => exact iff_of_false nofun fun h => h.value (String.isEmpty_iff.1 hempty)
  · next hvalue =>
      rw [Facts.fault?_eq_none_iff]
      exact ⟨fun h => ⟨mt String.isEmpty_iff.2 hvalue, h⟩, Rule.Sound.facts⟩

theorem firstFault?_eq_some {rules : List Rule} {start i : Nat} {reason : String}
    (h : firstFault? start rules = some (i, reason)) :
    ∃ j r, i = start + j ∧ FirstAt (fun r => ¬r.Sound) rules j r ∧ r.fault? = some reason := by
  induction rules generalizing start with
  | nil => cases h
  | cons r rest ih =>
      rw [firstFault?] at h
      cases hr : r.fault? with
      | some fault =>
          rw [hr] at h
          cases h
          have hunsound : ¬r.Sound := fun hsound => by
            rw [Rule.fault?_eq_none_iff.2 hsound] at hr
            cases hr
          exact ⟨0, r, rfl, .head hunsound, hr⟩
      | none =>
          rw [hr] at h
          obtain ⟨j, r', rfl, hfirst, hfault⟩ := ih h
          exact ⟨j + 1, r', by omega, hfirst.tail (not_not.2 (Rule.fault?_eq_none_iff.1 hr)),
            hfault⟩

/-- What becomes of some rules and a fallback. -/
inductive PriceTable.Built (rules : List Rule) (fallback : Facts) :
    Except PricingError PriceTable → Prop where
  | unsoundFallback {reason : String} : ¬fallback.Sound → fallback.fault? = some reason →
      Built rules fallback (.error (.invalidFallback reason))
  | unsoundRule {i : Nat} {r : Rule} {reason : String} : fallback.Sound →
      FirstAt (fun r => ¬r.Sound) rules i r → r.fault? = some reason →
      Built rules fallback (.error (.invalidRule i reason))
  | sound {t : PriceTable} : fallback.Sound → (∀ r ∈ rules, r.Sound) → t.rules = rules →
      t.fallback = fallback → Built rules fallback (.ok t)

theorem PriceTable.built_ofRules (rules : List Rule) (fallback : Facts) :
    Built rules fallback (ofRules rules fallback) := by
  rw [ofRules]
  split
  · next reason hfallback =>
      refine .unsoundFallback (fun hsound => ?_) hfallback
      rw [Facts.fault?_eq_none_iff.2 hsound] at hfallback
      cases hfallback
  · next hfallback =>
      have hsound := Facts.fault?_eq_none_iff.1 hfallback
      split
      · next i reason hrules =>
          obtain ⟨j, r, rfl, hfirst, hfault⟩ := firstFault?_eq_some hrules
          rw [Nat.zero_add]
          exact .unsoundRule hsound hfirst hfault
      · next hrules =>
          exact .sound hsound
            (fun r hr => Rule.fault?_eq_none_iff.1 (sound_of_firstFault? hrules r hr)) rfl rfl

/-- A table is made of what can be charged by, and of nothing else. -/
theorem PriceTable.ofRules_ok_iff {rules : List Rule} {fallback : Facts} :
    (∃ t, ofRules rules fallback = .ok t) ↔ fallback.Sound ∧ ∀ r ∈ rules, r.Sound := by
  have hbuilt := built_ofRules rules fallback
  generalize ofRules rules fallback = made at hbuilt
  cases hbuilt with
  | unsoundFallback hfallback => exact iff_of_false nofun fun h => hfallback h.1
  | unsoundRule _ hfirst =>
      exact iff_of_false nofun fun h =>
        hfirst.holds (h.2 _ (List.mem_of_getElem? hfirst.there))
  | @sound t hfallback hrules => exact iff_of_true ⟨t, rfl⟩ ⟨hfallback, hrules⟩

/-! ## The rule of a model -/

/-- A matcher that fits a model, and how. -/
inductive Matcher.Fits : Matcher → String → MatchType → Prop where
  | exact (model : String) : Fits ⟨.equals, model⟩ model .exact
  | leading {value model : String} : value.toList <+: model.toList →
      Fits ⟨.startsWith, value⟩ model .leading
  | substring {value model : String} : value.toList <:+: model.toList →
      Fits ⟨.includes, value⟩ model .substring

theorem Matcher.matches_iff {m : Matcher} {model : String} :
    m.matches model = true ↔ m.Fits model m.operator.matchType := by
  obtain ⟨operator, value⟩ := m
  cases operator with
  | equals =>
      refine beq_iff_eq.trans ⟨?_, ?_⟩
      · rintro rfl
        exact .exact _
      · rintro ⟨⟩
        rfl
  | startsWith =>
      refine Text.startsWith_iff.trans ⟨.leading, ?_⟩
      rintro ⟨⟩
      assumption
  | includes =>
      refine Text.occurs_iff.trans ⟨.substring, ?_⟩
      rintro ⟨⟩
      assumption

theorem Matcher.Fits.kind_eq {m : Matcher} {model : String} {kind : MatchType}
    (h : m.Fits model kind) : kind = m.operator.matchType := by
  cases h <;> rfl

/-- A rule that is one for a model. -/
def Rule.IsFor (model : String) (r : Rule) : Prop := ∃ kind, r.matcher.Fits model kind

theorem Rule.isFor_iff {model : String} {r : Rule} :
    r.IsFor model ↔ r.matcher.matches model = true := by
  rw [Matcher.matches_iff]
  refine ⟨?_, fun h => ⟨_, h⟩⟩
  rintro ⟨kind, h⟩
  exact h.kind_eq ▸ h

namespace PriceTable

theorem firstMatch?_eq_some {model : String} {rules : List Rule} {start i : Nat} {r : Rule}
    (h : firstMatch? model start rules = some (i, r)) :
    ∃ j, i = start + j ∧ FirstAt (Rule.IsFor model) rules j r := by
  induction rules generalizing start with
  | nil => cases h
  | cons r' rest ih =>
      rw [firstMatch?] at h
      split at h
      · next hfits =>
          cases h
          exact ⟨0, rfl, .head (Rule.isFor_iff.2 hfits)⟩
      · next hfits =>
          obtain ⟨j, rfl, hfirst⟩ := ih h
          exact ⟨j + 1, by omega, hfirst.tail (mt Rule.isFor_iff.1 hfits)⟩

theorem firstMatch?_eq_none {model : String} {rules : List Rule} {start : Nat}
    (h : firstMatch? model start rules = none) : ∀ r ∈ rules, ¬r.IsFor model := by
  induction rules generalizing start with
  | nil => exact nofun
  | cons r rest ih =>
      rw [firstMatch?] at h
      split at h
      · cases h
      · next hfits => exact List.forall_mem_cons.2 ⟨mt Rule.isFor_iff.1 hfits, ih h⟩

/-- The prices of a model by a table: those of its first rule, or the fallback. -/
inductive Resolves (t : PriceTable) (model : String) : Resolved → Prop where
  | rule {i : Nat} {r : Rule} {kind : MatchType} : FirstAt (Rule.IsFor model) t.rules i r →
      r.matcher.Fits model kind → Resolves t model ⟨r.facts, kind, some i⟩
  | fallback : (∀ r ∈ t.rules, ¬r.IsFor model) → Resolves t model ⟨t.fallback, .fallback, none⟩

theorem resolves_resolve (t : PriceTable) (model : String) :
    t.Resolves model (t.resolve model) := by
  rw [resolve]
  split
  · next i r hmatch =>
      obtain ⟨j, rfl, hfirst⟩ := firstMatch?_eq_some hmatch
      rw [Nat.zero_add]
      exact .rule hfirst (Matcher.matches_iff.1 (Rule.isFor_iff.1 hfirst.holds))
  · next hmatch => exact .fallback (firstMatch?_eq_none hmatch)

end PriceTable

end RequestLog.Pricing
