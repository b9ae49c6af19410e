import RequestLog.Pricing.File
import RequestLog.Proofs.Filter.Unbounded
import RequestLog.Proofs.Pricing.Table

/-!
# Price lists as they are written

An element of a price list is written for one rule (`IsRule`, `IsRule.unique`), so a text that
is read as a price list says which rules the table has, and in which order. It follows that a
place in the table is a place in the text: what a table gives for a model can be said of the
elements of the list alone (`ListResolves`).
-/

namespace RequestLog.Pricing

open Json RequestBody

/-! ## Shapes -/

/-- The names of an operator; one has two. -/
inductive MatchOperator.IsNamed : MatchOperator → String → Prop where
  | equals : IsNamed .equals "equals"
  | startsWith : IsNamed .startsWith "starts_with"
  | camelCase : IsNamed .startsWith "startsWith"
  | includes : IsNamed .includes "includes"

inductive IsMatcher : Matcher → Json → Prop where
  | mk {operator : MatchOperator} {name value : String} {fields : List (String × Json)}
      {v w : Json} : RecordShape true ["operator", "value"] 2 fields v →
      get? "operator" fields = some w → NameShape true name w → operator.IsNamed name →
      get? "value" fields = some (.text value) → IsMatcher ⟨operator, value⟩ v

inductive IsCost : Float × Float → Json → Prop where
  | mk {prompt completion : Json.Number} {fields : List (String × Json)} {v : Json} :
      RecordShape true ["prompt_token", "completion_token"] 2 fields v →
      get? "prompt_token" fields = some (.number prompt) →
      get? "completion_token" fields = some (.number completion) →
      IsCost (prompt.toFloat, completion.toFloat) v

/-- The size of a window, which is none where it is left out. -/
inductive IsWindow (fields : List (String × Json)) : Nat → Prop where
  | omitted : get? "max_window_size" fields = none → IsWindow fields 0
  | given {n : Nat} : get? "max_window_size" fields = some (.number (.int n)) → n < 2 ^ 64 →
      IsWindow fields n

inductive IsRule : Rule → Json → Prop where
  | mk {matcher : Matcher} {prompt completion : Float} {window : Nat}
      {fields : List (String × Json)} {v model cost : Json} :
      RecordShape true ["model", "cost", "max_window_size"] 2 fields v →
      get? "model" fields = some model → IsMatcher matcher model →
      get? "cost" fields = some cost → IsCost (prompt, completion) cost →
      IsWindow fields window → IsRule ⟨matcher, ⟨prompt, completion, window⟩⟩ v

/-! ## One rule for an element -/

theorem MatchOperator.IsNamed.plain {op : MatchOperator} {name : String} (h : op.IsNamed name) :
    matchOperatorChoice.plain name = some (.ok op) := by
  cases h <;> rfl

theorem MatchOperator.IsNamed.unique {op op' : MatchOperator} {name : String}
    (h : op.IsNamed name) (h' : op'.IsNamed name) : op = op' :=
  Except.ok.inj (Option.some.inj (h.plain.symm.trans h'.plain))

theorem IsMatcher.unique {m m' : Matcher} {v : Json} (h : IsMatcher m v) (h' : IsMatcher m' v) :
    m = m' := by
  obtain ⟨hrecord, hoperator, hname, hnamed, hvalue⟩ := h
  obtain ⟨hrecord', hoperator', hname', hnamed', hvalue'⟩ := h'
  obtain rfl := hrecord.fields_eq hrecord'
  obtain rfl := Option.some.inj (hoperator.symm.trans hoperator')
  obtain rfl := hname.eq hname'
  obtain rfl := hnamed.unique hnamed'
  obtain rfl := Json.text.inj (Option.some.inj (hvalue.symm.trans hvalue'))
  rfl

theorem IsCost.unique {c c' : Float × Float} {v : Json} (h : IsCost c v) (h' : IsCost c' v) :
    c = c' := by
  obtain ⟨hrecord, hprompt, hcompletion⟩ := h
  obtain ⟨hrecord', hprompt', hcompletion'⟩ := h'
  obtain rfl := hrecord.fields_eq hrecord'
  obtain rfl := Json.number.inj (Option.some.inj (hprompt.symm.trans hprompt'))
  obtain rfl := Json.number.inj (Option.some.inj (hcompletion.symm.trans hcompletion'))
  rfl

theorem IsWindow.unique {fields : List (String × Json)} {n n' : Nat} (h : IsWindow fields n)
    (h' : IsWindow fields n') : n = n' := by
  cases h with
  | omitted hget =>
      cases h' with
      | omitted => rfl
      | given hget' => cases hget.symm.trans hget'
  | given hget =>
      cases h' with
      | omitted hget' => cases hget.symm.trans hget'
      | given hget' =>
          have hnumber := Json.number.inj (Option.some.inj (hget.symm.trans hget'))
          exact Int.ofNat.inj (Json.Number.int.inj hnumber)

theorem IsRule.unique {r r' : Rule} {v : Json} (h : IsRule r v) (h' : IsRule r' v) : r = r' := by
  obtain ⟨hrecord, hmodel, hmatcher, hcost, hprices, hwindow⟩ := h
  obtain ⟨hrecord', hmodel', hmatcher', hcost', hprices', hwindow'⟩ := h'
  obtain rfl := hrecord.fields_eq hrecord'
  obtain rfl := Option.some.inj (hmodel.symm.trans hmodel')
  obtain rfl := Option.some.inj (hcost.symm.trans hcost')
  obtain rfl := hmatcher.unique hmatcher'
  obtain ⟨rfl, rfl⟩ := Prod.mk.inj (hprices.unique hprices')
  obtain rfl := hwindow.unique hwindow'
  rfl

/-! ## What is read has the shape of a rule -/

/-- A draft that was empty has been filled from the members of a record: each of its parts is
what is read under the key of the part. -/
structure Filled {δ : Type} (r : Record δ) (room : Nat) (fields : List (String × Json))
    (empty d : δ) : Prop where
  reads {α : Type} {key : String} {part : δ → Option α} {read : Decoder α} {a : α} :
    r.Field key part (fun room t => (read room t).map some) → part empty = none →
    part d = some a → Reads read room fields key a
  readsOr {α : Type} {key : String} {part : δ → Option α} {read : Decoder α} (default : α) :
    r.Field key part (fun room t => (read room t).map some) → part empty = none →
    ReadsOr read default room fields key ((part d).getD default)

theorem filled_of_decode {δ : Type} {r : Record δ} (hr : r.Strict)
    (hvalues : ∀ slot ∈ r.slots, slot.OnValues) {empty d : δ} {room : Nat} {t : Tree}
    (h : r.decode empty room t = .ok d) :
    ∃ (room' : Nat) (v : Json) (fields : List (String × Json)), t = v.tree ∧
      RecordShape true (r.slots.map (·.key)) r.required fields v ∧
      Filled r room' fields empty d := by
  obtain ⟨room, v, slots, rfl, rfl, hlaid, hfill⟩ := (Record.decode_ok_iff hr hvalues).1 h
  have hnodup := hlaid.nodup hr
  have hshape : Laid r (Record.named slots) v := ⟨slots, hlaid, rfl⟩
  refine ⟨room, v, Record.named slots, rfl, hshape.shape, ?_, ?_⟩
  · intro α key part read a hfield hempty
    exact (hfield.some_iff hempty hnodup hlaid.mem hfill).1
  · intro α key part read default hfield hempty
    exact hfield.getD_eq hempty hnodup hlaid.mem hfill

theorem matcherRecord_strict : matcherRecord.Strict := ⟨rfl, rfl, by decide, by decide⟩

theorem matcherRecord_onValues : ∀ slot ∈ matcherRecord.slots, slot.OnValues := by
  intro slot hslot
  simp only [matcherRecord, List.mem_cons, List.not_mem_nil, or_false] at hslot
  obtain rfl | rfl := hslot
  · exact Slot.onValues_map Choice.onValues_constants
  · exact Slot.onValues_map fun room t s h => ⟨_, decodeText_ok_iff.1 h⟩

theorem matcherRecord_fields :
    (matcherRecord.Field "operator" (·.operator)
      fun room t => (matchOperatorChoice.decode room t).map some) ∧
    matcherRecord.Field "value" (·.value)
      fun room t => (decodeText "a string" room t).map some := by
  refine ⟨?_, ?_⟩ <;>
    (intro slot hslot
     simp only [matcherRecord, List.mem_cons, List.not_mem_nil, or_false] at hslot
     obtain rfl | rfl := hslot <;>
       first
       | exact .inl ⟨rfl, Slot.sets_map fun _ _ => rfl⟩
       | exact .inr ⟨by decide, Slot.keeps_map fun _ _ => rfl⟩)

theorem isNamed_of_decode {room : Nat} {v : Json} {op : MatchOperator}
    (h : matchOperatorChoice.decode room v.tree = .ok op) :
    ∃ name, NameShape true name v ∧ op.IsNamed name := by
  obtain ⟨name, hvalue, hv⟩ := Choice.decode_constants_iff.1 h
  refine ⟨name, ?_, ?_⟩
  · obtain rfl | ⟨-, rfl⟩ := hv
    · exact .text
    · exact .key rfl
  · split at hvalue <;> cases hvalue
    · exact .equals
    · exact .camelCase
    · exact .startsWith
    · exact .includes

theorem isMatcher_of_decode {room : Nat} {t : Tree} {m : Matcher}
    (h : decodeMatcher room t = .ok m) : ∃ v : Json, t = v.tree ∧ IsMatcher m v := by
  obtain ⟨hoperator, hvalue⟩ := matcherRecord_fields
  obtain ⟨d, hd, h⟩ := ok_of_bind h
  obtain ⟨operator, ho, h⟩ := ok_of_bind h
  obtain ⟨value, hv, h⟩ := ok_of_bind h
  cases h
  rw [require_ok_iff] at ho hv
  obtain ⟨room, v, fields, rfl, hshape, hfilled⟩ :=
    filled_of_decode matcherRecord_strict matcherRecord_onValues hd
  obtain ⟨w, hgetOperator, hreadOperator⟩ := hfilled.reads hoperator rfl ho
  obtain ⟨u, hgetValue, hreadValue⟩ := hfilled.reads hvalue rfl hv
  obtain ⟨name, hname, hnamed⟩ := isNamed_of_decode hreadOperator
  obtain rfl := tree_injective (decodeText_ok_iff.1 hreadValue)
  exact ⟨v, rfl, .mk hshape hgetOperator hname hnamed hgetValue⟩

theorem costRecord_strict : costRecord.Strict := ⟨rfl, rfl, by decide, by decide⟩

theorem onValues_float : OnValues decodeFloat := by
  intro room t x h
  obtain ⟨n, rfl, -⟩ := decodeFloat_ok_iff.1 h
  exact ⟨.number n, rfl⟩

theorem costRecord_onValues : ∀ slot ∈ costRecord.slots, slot.OnValues := by
  intro slot hslot
  simp only [costRecord, List.mem_cons, List.not_mem_nil, or_false] at hslot
  obtain rfl | rfl := hslot <;> exact Slot.onValues_map onValues_float

theorem costRecord_fields :
    (costRecord.Field "prompt_token" (·.prompt) fun room t => (decodeFloat room t).map some) ∧
    costRecord.Field "completion_token" (·.completion)
      fun room t => (decodeFloat room t).map some := by
  refine ⟨?_, ?_⟩ <;>
    (intro slot hslot
     simp only [costRecord, List.mem_cons, List.not_mem_nil, or_false] at hslot
     obtain rfl | rfl := hslot <;>
       first
       | exact .inl ⟨rfl, Slot.sets_map fun _ _ => rfl⟩
       | exact .inr ⟨by decide, Slot.keeps_map fun _ _ => rfl⟩)

theorem isCost_of_decode {room : Nat} {t : Tree} {c : Float × Float}
    (h : decodeCost room t = .ok c) : ∃ v : Json, t = v.tree ∧ IsCost c v := by
  obtain ⟨hprompt, hcompletion⟩ := costRecord_fields
  obtain ⟨d, hd, h⟩ := ok_of_bind h
  obtain ⟨prompt, hp, h⟩ := ok_of_bind h
  obtain ⟨completion, hc, h⟩ := ok_of_bind h
  cases h
  rw [require_ok_iff] at hp hc
  obtain ⟨room, v, fields, rfl, hshape, hfilled⟩ :=
    filled_of_decode costRecord_strict costRecord_onValues hd
  obtain ⟨w, hgetPrompt, hreadPrompt⟩ := hfilled.reads hprompt rfl hp
  obtain ⟨u, hgetCompletion, hreadCompletion⟩ := hfilled.reads hcompletion rfl hc
  obtain ⟨n, hn, rfl⟩ := decodeFloat_ok_iff.1 hreadPrompt
  obtain ⟨k, hk, rfl⟩ := decodeFloat_ok_iff.1 hreadCompletion
  obtain rfl := tree_injective hn
  obtain rfl := tree_injective hk
  exact ⟨v, rfl, .mk hshape hgetPrompt hgetCompletion⟩

theorem ruleRecord_strict : ruleRecord.Strict := ⟨rfl, rfl, by decide, by decide⟩

theorem ruleRecord_onValues : ∀ slot ∈ ruleRecord.slots, slot.OnValues := by
  intro slot hslot
  simp only [ruleRecord, List.mem_cons, List.not_mem_nil, or_false] at hslot
  obtain rfl | rfl | rfl := hslot
  · refine Slot.onValues_map fun room t m h => ?_
    obtain ⟨v, rfl, -⟩ := isMatcher_of_decode h
    exact ⟨v, rfl⟩
  · refine Slot.onValues_map fun room t c h => ?_
    obtain ⟨v, rfl, -⟩ := isCost_of_decode h
    exact ⟨v, rfl⟩
  · exact Slot.onValues_map fun room t n h => ⟨_, (decodeUnsigned_ok_iff.1 h).1⟩

theorem ruleRecord_fields :
    (ruleRecord.Field "model" (·.matcher) fun room t => (decodeMatcher room t).map some) ∧
    (ruleRecord.Field "cost" (·.cost) fun room t => (decodeCost room t).map some) ∧
    ruleRecord.Field "max_window_size" (·.window)
      fun room t => (decodeUnsigned 64 room t).map some := by
  refine ⟨?_, ?_, ?_⟩ <;>
    (intro slot hslot
     simp only [ruleRecord, List.mem_cons, List.not_mem_nil, or_false] at hslot
     obtain rfl | rfl | rfl := hslot <;>
       first
       | exact .inl ⟨rfl, Slot.sets_map fun _ _ => rfl⟩
       | exact .inr ⟨by decide, Slot.keeps_map fun _ _ => rfl⟩)

theorem isWindow_of_readsOr {room : Nat} {fields : List (String × Json)} {n : Nat}
    (h : ReadsOr (decodeUnsigned 64) 0 room fields "max_window_size" n) : IsWindow fields n := by
  unfold ReadsOr at h
  split at h
  · next w hget =>
      obtain ⟨hw, hn⟩ := decodeUnsigned_ok_iff.1 h
      obtain rfl := tree_injective hw
      exact .given hget hn
  · next hget =>
      obtain rfl := Except.ok.inj h
      exact .omitted hget

theorem isRule_of_decode {room : Nat} {t : Tree} {r : Rule} (h : decodeRule room t = .ok r) :
    ∃ v : Json, t = v.tree ∧ IsRule r v := by
  obtain ⟨hmodel, hcost, hwindow⟩ := ruleRecord_fields
  obtain ⟨d, hd, h⟩ := ok_of_bind h
  obtain ⟨matcher, hm, h⟩ := ok_of_bind h
  obtain ⟨⟨prompt, completion⟩, hc, h⟩ := ok_of_bind h
  cases h
  rw [require_ok_iff] at hm hc
  obtain ⟨room, v, fields, rfl, hshape, hfilled⟩ :=
    filled_of_decode ruleRecord_strict ruleRecord_onValues hd
  obtain ⟨w, hgetModel, hreadModel⟩ := hfilled.reads hmodel rfl hm
  obtain ⟨u, hgetCost, hreadCost⟩ := hfilled.reads hcost rfl hc
  have hreadWindow := hfilled.readsOr 0 hwindow rfl
  obtain ⟨w', hw, hmatcher⟩ := isMatcher_of_decode hreadModel
  obtain rfl := tree_injective hw
  obtain ⟨u', hu, hprices⟩ := isCost_of_decode hreadCost
  obtain rfl := tree_injective hu
  exact ⟨v, rfl, .mk hshape hgetModel hmatcher hgetCost hprices
    (isWindow_of_readsOr hreadWindow)⟩

/-! ## Lists -/

/-- A price list is read element by element, and the table has a rule for each. -/
theorem PriceTable.parse_ok {text : String} {t : PriceTable} (h : parse text = .ok t) :
    ∃ items, (Json.array items).Written text.toList ∧ List.Forall₂ IsRule t.rules items ∧
      t.fallback = .free := by
  have hvalues : OnValues decodeRule := fun room t r hr =>
    (isRule_of_decode hr).imp fun _ hv => hv.1
  rw [parse] at h
  split at h
  · cases h
  · next rules hread =>
      have hbuilt := built_ofRules rules .free
      rw [h] at hbuilt
      cases hbuilt with
      | sound _ _ hrules hfallback =>
          obtain ⟨v, hwritten, hlist⟩ := (decodeWhole_ok_iff (onValues_list hvalues)).1 hread
          obtain ⟨room, items, -, hv, hall⟩ := (decodeList_ok_iff hvalues).1 hlist
          obtain rfl := tree_injective hv
          refine ⟨items, hwritten, ?_, hfallback⟩
          rw [hrules]
          refine hall.flip.imp fun r v hr => ?_
          obtain ⟨w, hw, hrule⟩ := isRule_of_decode hr
          exact tree_injective hw ▸ hrule

/-- An element of a list whose rule is one for a model. -/
def MatchesElement (model : String) (v : Json) : Prop := ∃ r, IsRule r v ∧ r.IsFor model

/-- The prices of a model by the elements of a list: those of the first that matches it, and
nothing is charged for a model that none matches. -/
inductive ListResolves (items : List Json) (model : String) : Resolved → Prop where
  | element {i : Nat} {v : Json} {r : Rule} {kind : MatchType} :
      FirstAt (MatchesElement model) items i v → IsRule r v → r.matcher.Fits model kind →
      ListResolves items model ⟨r.facts, kind, some i⟩
  | none : (∀ v ∈ items, ¬MatchesElement model v) →
      ListResolves items model ⟨.free, .fallback, none⟩

theorem PriceTable.listResolves_resolve {t : PriceTable} {items : List Json}
    (hall : List.Forall₂ IsRule t.rules items) (hfree : t.fallback = .free) (model : String) :
    ListResolves items model (t.resolve model) := by
  have hiff (r : Rule) (v : Json) (hr : IsRule r v) : MatchesElement model v ↔ r.IsFor model := by
    refine ⟨?_, fun hfor => ⟨r, hr, hfor⟩⟩
    rintro ⟨r', hr', hfor⟩
    exact hr'.unique hr ▸ hfor
  have hresolves := t.resolves_resolve model
  generalize t.resolve model = resolved at hresolves
  cases hresolves with
  | rule hfirst hfits =>
      obtain ⟨v, hv, hplace⟩ := hfirst.of_forall₂ hall hiff
      exact .element hplace hv hfits
  | fallback hnone =>
      rw [hfree]
      refine .none fun v hv hmatches => ?_
      obtain ⟨i, hi, rfl⟩ := List.mem_iff_getElem.1 hv
      have hr := hall.get (hall.length_eq ▸ hi) hi
      exact hnone _ (List.get_mem ..) ((hiff _ _ hr).1 hmatches)

/-- A table is made of rules and a fallback exactly if all of them can be charged by; otherwise
an unsound fallback is what is complained of, or else the first unsound rule, by its place. One
that is read from a text has the elements of an array for its rules, all of them and in their
order, and nothing to charge besides; so the place that it gives for a model is that of the
first element that matches the model. -/
theorem PriceTable.parse_faithful :
    (∀ rules fallback, Built rules fallback (ofRules rules fallback) ∧
      ((∃ t, ofRules rules fallback = .ok t) ↔ fallback.Sound ∧ ∀ r ∈ rules, r.Sound)) ∧
    ∀ text t, parse text = .ok t →
      ∃ items, (Json.array items).Written text.toList ∧ List.Forall₂ IsRule t.rules items ∧
        t.fallback = .free ∧ ∀ model, ListResolves items model (t.resolve model) := by
  refine ⟨fun rules fallback => ⟨built_ofRules rules fallback, ofRules_ok_iff⟩,
    fun text t hparse => ?_⟩
  obtain ⟨items, hwritten, hall, hfree⟩ := parse_ok hparse
  exact ⟨items, hwritten, hall, hfree, listResolves_resolve hall hfree⟩

/-! ## A list with overlapping rules -/

/-- Two rules that fit the same model, the first of them written with the keys of its fields. -/
def listText : String :=
  "[\x7b\"model\":[\"includes\",\"gpt\"],\"cost\":[1,2]\x7d,[[\"equals\",\"gpt-4\"],[3,4],8192]]"

def listRules : List Rule :=
  [⟨⟨.includes, "gpt"⟩, ⟨Decimal.ofInt 1, Decimal.ofInt 2, 0⟩⟩,
    ⟨⟨.equals, "gpt-4"⟩, ⟨Decimal.ofInt 3, Decimal.ofInt 4, 8192⟩⟩]

theorem decode_listText : decodeWhole (decodeList decodeRule) listText = .ok listRules := by
  have htokens : tokens listText.toList =
      [.punct .openArray, .punct .openObject, .text (.ok "model"), .punct .colon,
        .punct .openArray, .text (.ok "includes"), .punct .comma, .text (.ok "gpt"),
        .punct .closeArray, .punct .comma, .text (.ok "cost"), .punct .colon, .punct .openArray,
        .number (.ok (.int 1)), .punct .comma, .number (.ok (.int 2)), .punct .closeArray,
        .punct .closeObject, .punct .comma, .punct .openArray, .punct .openArray,
        .text (.ok "equals"), .punct .comma, .text (.ok "gpt-4"), .punct .closeArray,
        .punct .comma, .punct .openArray, .number (.ok (.int 3)), .punct .comma,
        .number (.ok (.int 4)), .punct .closeArray, .punct .comma, .number (.ok (.int 8192)),
        .punct .closeArray, .punct .closeArray] := by
    iterate 35 refine tokensAfter_cons rfl rfl ?_
    exact tokensAfter_nil
  rw [decodeWhole, htokens]
  rfl

theorem parse_listText : ∃ t, PriceTable.parse listText = .ok t ∧ t.rules = listRules := by
  have hsound : ∀ r ∈ listRules, r.fault? = none :=
    List.forall_iff_forall_mem.1 ⟨rfl, rfl⟩
  have hmade : ∃ t, PriceTable.ofRules listRules .free = .ok t :=
    PriceTable.ofRules_ok_iff.2 ⟨Facts.fault?_eq_none_iff.1 rfl,
      fun r hr => Rule.fault?_eq_none_iff.1 (hsound r hr)⟩
  obtain ⟨t, ht⟩ := hmade
  have hbuilt := PriceTable.built_ofRules listRules .free
  rw [ht] at hbuilt
  cases hbuilt with
  | sound _ _ hrules _ => exact ⟨t, by rw [PriceTable.parse, decode_listText]; exact ht, hrules⟩

/-- The first of the two is taken, although the other has the model's very name. -/
theorem listText_loaded :
    ∃ t items, PriceTable.parse listText = .ok t ∧
      (Json.array items).Written listText.toList ∧ items.length = 2 ∧
      ListResolves items "gpt-4" ⟨⟨Decimal.ofInt 1, Decimal.ofInt 2, 0⟩, .substring, some 0⟩ := by
  obtain ⟨t, ht, hrules⟩ := parse_listText
  obtain ⟨items, hwritten, hall, -, hresolves⟩ := PriceTable.parse_faithful.2 listText t ht
  have hresolve : t.resolve "gpt-4" =
      ⟨⟨Decimal.ofInt 1, Decimal.ofInt 2, 0⟩, .substring, some 0⟩ := by
    rw [PriceTable.resolve, hrules]
    rfl
  refine ⟨t, items, ht, hwritten, ?_, hresolve ▸ hresolves "gpt-4"⟩
  rw [← hall.length_eq, hrules]
  rfl

end RequestLog.Pricing
