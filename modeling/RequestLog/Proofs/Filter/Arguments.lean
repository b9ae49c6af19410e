import RequestLog.Proofs.Filter.Agreement
import RequestLog.Proofs.Filter.Limits
import RequestLog.Proofs.Json.Size
import RequestLog.Proofs.Metric.Clause

/-!
# A request has more bytes than its query has arguments

A query binds the organization, the two ends of the range, and what the leaves compare with: a
list item by item, anything else as one argument. No limit is put on any of these but on the
bytes of the request, and stores take only so many arguments.

That the one limit keeps the other is counted along the value that a request is read from.
Every item of a list brings a token of its own and one more to part it from the next, and what
has to stand around a list is more than what the organization and the range add. Each record
may be written as an array, without its keys, so nothing is counted on but its values and
what parts them. That is enough, and just so: from 65536 bytes no more than the 32766 arguments
come that SQLite takes.
-/

namespace RequestLog

open Json

namespace RequestBody

/-- Three arguments are bound besides those of the caller's own filter. -/
theorem length_operands {table : Table} {tenant : Tenant} {body : RequestBody}
    {family : Family} {c : Condition}
    (h : ScopedFilter.check ⟨table, tenant, body.filterOver table⟩ family = .ok c) :
    c.operands.length = body.filter.values.length + 3 := by
  obtain ⟨source, -, hchecks⟩ := ScopedFilter.checks_of_check h
  exact hchecks.length_operands

/-! ## Tokens of a record -/

section

variable {free : Bool} {keys : List String} {required : Nat} {fields : List (String × Json)}
  {v x y : Json} {key other : String}

theorem RecordShape.sum_lt_size (h : RecordShape free keys required fields v) :
    (fields.map fun f => f.2.size + 1).sum < v.size := by
  cases h with
  | object =>
      have hle : (fields.map fun f => f.2.size + 1).sum ≤ (fields.map fun f => f.2.size + 3).sum :=
        List.sum_le_sum fun f _ => Nat.add_le_add_left (by decide) f.2.size
      exact Nat.lt_of_le_of_lt hle (sum_lt_size_object fields)
  | array =>
      have hlt := sum_lt_size_array (fields.map (·.2))
      rwa [List.map_map] at hlt

theorem RecordShape.part_lt_size (h : RecordShape free keys required fields v)
    (hx : get? key fields = some x) : x.size + 1 < v.size :=
  Nat.lt_of_le_of_lt (le_sum_of_get? (fun w => w.size + 1) hx) h.sum_lt_size

theorem RecordShape.pair_lt_size (h : RecordShape free keys required fields v)
    (hne : key ≠ other) (hx : get? key fields = some x) (hy : get? other fields = some y) :
    x.size + y.size + 2 < v.size := by
  have hget : ∀ p ∈ [(key, x), (other, y)], get? p.1 fields = some p.2 := by simp [hx, hy]
  have hparts := sum_le_of_get? (fun w => w.size + 1) (by simpa using hne) hget
  have hsum := h.sum_lt_size
  simp only [List.map_cons, List.map_nil, List.sum_cons, List.sum_nil] at hparts
  omega

end

/-! ## Tokens of a filter -/

/-- An operand has at least two tokens for each of its arguments, but for the last. -/
theorem length_spread_of_operand {field : String} {kind : Kind} {room : Nat} {w j : Json}
    {x : Scalar} (hread : decodeJson room w.tree = .ok j)
    (hx : Filter.operand field kind j = .ok x) : 2 * x.spread.length ≤ w.size + 1 := by
  unfold Filter.operand at hx
  split at hx
  -- Only a list has more than one argument, and it can only have been read from an array.
  · next items =>
      obtain ⟨xs, hxs, rfl⟩ := ok_of_map hx
      have hlength : items.length = xs.length := (forall₂_of_mapM hxs).length_eq
      cases w with
      | array vs =>
          cases room with
          | zero => cases hread
          | succ room =>
              obtain ⟨js, hjs, hitems⟩ := ok_of_map hread
              cases hitems
              have hsame := length_of_itemsToJson hjs
              have hsize := two_mul_length_lt_size vs
              rw [List.length_nil] at hsame
              rw [Scalar.spread]
              omega
      | object members =>
          cases room with
          | zero => cases hread
          | succ room =>
              obtain ⟨_, -, hobject⟩ := ok_of_map hread
              cases hobject
      | null | bool | number | text => cases hread
  · have hone : x.spread.length ≤ 1 := by
      cases Filter.holdsOne_of_single hx <;> simp [Scalar.spread]
    have hpos := w.size_pos
    omega

theorem length_spread_of_leaf {room : Nat} {v : Json} {l : LeafOf Json} {x : Scalar}
    (hread : decodeLeaf room v.tree = .ok l)
    (hx : Filter.operand (fieldName l.table l.column) l.column.kind l.value = .ok x) :
    2 * x.spread.length ≤ v.size := by
  obtain ⟨_, v', fields, -, htree, hlaid, -, -, -, hvalue⟩ := decodeLeaf_ok_iff.1 hread
  obtain rfl := tree_injective htree
  unfold ReadsOr at hvalue
  cases hw : get? "value" fields with
  | none =>
      rw [hw] at hvalue
      rw [← Except.ok.inj hvalue] at hx
      cases hx
      exact Nat.zero_le _
  | some w =>
      rw [hw] at hvalue
      have hoperand := length_spread_of_operand hvalue hx
      have hsize := hlaid.shape.part_lt_size hw
      omega

theorem leaf_of_decodeNode {levels room : Nat} {v : Json} {l : LeafOf Json}
    (h : decodeNode levels room v.tree = .ok (.leaf l)) :
    ∃ room' u, v = .object [("leaf", u)] ∧ decodeLeaf room' u.tree = .ok l := by
  obtain ⟨inner, hinner, heq⟩ := decodeNode_eq levels
  rw [heq] at h
  obtain ⟨hnode, -⟩ | ⟨room', u, -, ⟨_, hv, hnode, hleaf⟩ | ⟨-, hbranch⟩⟩ := nodeChoice_ok_iff.1 h
  · cases hnode
  · cases hnode
    exact ⟨room', u, hv, hleaf⟩
  · obtain ⟨_, _, _, _, _, _, -, -, hnode, -⟩ := (decodeBranch_ok_iff hinner).1 hbranch
    cases hnode

theorem branch_of_decodeNode {levels room : Nat} {v : Json} {left right : FilterOf Json}
    {op : Connective} (h : decodeNode levels room v.tree = .ok (.branch left right op)) :
    ∃ levels' room' u fields leftValue rightValue, v = .object [("branch", u)] ∧
      RecordShape true ["left", "right", "operator"] 3 fields u ∧
      get? "left" fields = some leftValue ∧
      decodeNode levels' room' leftValue.tree = .ok left ∧
      get? "right" fields = some rightValue ∧
      decodeNode levels' room' rightValue.tree = .ok right := by
  have inside {inner : Decoder (FilterOf Json)} (hinner : OnValues inner)
      (h : (nodeChoice inner).decode room v.tree = .ok (.branch left right op)) :
      ∃ room' u fields leftValue rightValue, v = .object [("branch", u)] ∧
        RecordShape true ["left", "right", "operator"] 3 fields u ∧
        get? "left" fields = some leftValue ∧ inner room' leftValue.tree = .ok left ∧
        get? "right" fields = some rightValue ∧ inner room' rightValue.tree = .ok right := by
    obtain ⟨hnode, -⟩ | ⟨_, u, -, ⟨_, -, hnode, -⟩ | ⟨rfl, hbranch⟩⟩ := nodeChoice_ok_iff.1 h
    · cases hnode
    · cases hnode
    · obtain ⟨room', _, fields, _, _, _, -, htree, hnode, hlaid, ⟨lv, hleft, hl⟩,
        ⟨rv, hright, hr⟩, -⟩ := (decodeBranch_ok_iff hinner).1 hbranch
      obtain rfl := tree_injective htree
      cases hnode
      exact ⟨room', u, fields, lv, rv, rfl, hlaid.shape, hleft, hl, hright, hr⟩
  cases levels with
  | zero =>
      obtain ⟨_, _, _, _, _, -, -, -, hnone, -⟩ := inside (fun _ _ _ h => by cases h) h
      cases hnone
  | succ levels => exact ⟨levels, inside (onValues_node levels) h⟩

/-- A filter has more than two tokens for each of its arguments. -/
theorem length_values_of_node {w : FilterOf Json} {f : Filter} (h : Means w f)
    {levels room : Nat} {v : Json} (hread : decodeNode levels room v.tree = .ok w) :
    2 * f.values.length < v.size := by
  induction h generalizing levels room v with
  | all => exact v.size_pos
  | @leaf l x hx =>
      obtain ⟨_, u, rfl, hleaf⟩ := leaf_of_decodeNode hread
      have hsize := length_spread_of_leaf hleaf hx
      rw [size_member]
      change 2 * x.spread.length < _
      omega
  | branch _ _ ihleft ihright =>
      obtain ⟨_, _, u, fields, lv, rv, rfl, hrecord, hleft, hl, hright, hr⟩ :=
        branch_of_decodeNode hread
      have hsize := hrecord.pair_lt_size (by decide) hleft hright
      have hleftSize := ihleft hl
      have hrightSize := ihright hr
      rw [size_member, Filter.values, List.length_append]
      omega

/-! ## Bytes of a request -/

theorem size_of_range {ends : List (String × Json)} {range start stop : Json}
    (hrecord : RecordShape true ["start", "end"] 2 ends range)
    (hstart : get? "start" ends = some start) (hstop : get? "end" ends = some stop) :
    5 ≤ range.size := by
  have hsize := hrecord.pair_lt_size (by decide) hstart hstop
  have hstartSize := start.size_pos
  have hstopSize := stop.size_pos
  omega

/-- A request without a place for its filter is an object. -/
theorem size_of_unfiltered {fields : List (String × Json)} {v range : Json}
    (hrecord : RecordShape true ["filter", "timeFilter"] 0 fields v)
    (hfilter : get? "filter" fields = none) (hrange : get? "timeFilter" fields = some range) :
    range.size + 4 ≤ v.size := by
  cases hrecord with
  | object =>
      have hpart := le_sum_of_get? (fun w => w.size + 3) hrange
      exact Nat.lt_of_le_of_lt hpart (sum_lt_size_object fields)
  | array _ hkeys _ =>
      cases fields with
      | nil => cases hrange
      | cons m rest =>
          obtain ⟨hkey, -⟩ := List.cons.inj hkeys
          rw [get?_cons, if_pos hkey] at hfilter
          cases hfilter

theorem length_values_of_part {room : Nat} {fv : Json} {w : Wire} {body : RequestBody}
    (hread : decodeOption (decodeNode nestingRoom) room fv.tree = .ok w.filter)
    (hw : ofWire w = .ok body) : 2 * body.filter.values.length < fv.size := by
  have hfilter := ofWire_ok hw
  split at hfilter
  -- What is written as null counts as no filter.
  · rw [hfilter]
    exact fv.size_pos
  · next node hnode =>
      rw [hnode] at hread
      have hnull : fv ≠ .null := by
        rintro rfl
        cases hread
      rw [decodeOption_value hnull] at hread
      obtain ⟨_, hdecode, heq⟩ := ok_of_map hread
      cases heq
      exact length_values_of_node (means_of_resolve hfilter).1 hdecode

/-- A request that is accepted has two bytes for each argument of its filter, and nine more. -/
theorem length_values_of_parse {text : String} {body : RequestBody}
    (h : parse text = .ok body) : 2 * body.filter.values.length + 9 ≤ text.utf8ByteSize := by
  obtain ⟨-, w, hread, hw⟩ := parse_ok h
  obtain ⟨room, v, fields, -, hwritten, hlaid, hfilter, hrange⟩ := decodeWire_ok_iff.1 hread
  -- From here on tokens are counted, of which there are no more than bytes.
  refine Nat.le_trans ?_ hwritten.size_le
  cases hends : w.range with
  | none =>
      simp only [ofWire, hends] at hw
      cases hw
  | some ends =>
      rw [hends] at hrange
      obtain ⟨range, inside, start, stop, hgetRange, hrecord, hstart, hstop⟩ := hrange.ends
      have hrangeSize := size_of_range hrecord hstart hstop
      cases hgetFilter : get? "filter" fields with
      | none =>
          have hsize := size_of_unfiltered hlaid.shape hgetFilter hgetRange
          have hnone : w.filter = none := by
            rw [ReadsOr, hgetFilter] at hfilter
            exact (Except.ok.inj hfilter).symm
          have hall := ofWire_ok hw
          rw [hnone] at hall
          have hcount : body.filter.values.length = 0 := by
            rw [hall]
            rfl
          omega
      | some fv =>
          have hfilterSize := length_values_of_part (hfilter.fills fv hgetFilter) hw
          have hsize := hlaid.shape.pair_lt_size (by decide) hgetFilter hgetRange
          omega

end RequestBody

/-! ## Arguments of a query -/

theorem Program.compile_length {b : Backend} {table : Table} {org text : String} {q : Query}
    (h : Program.compile b table org text = .ok q) :
    ∃ body, RequestBody.parse text = .ok body ∧
      q.args.length = body.filter.values.length + 3 := by
  obtain ⟨tenant, -, h⟩ := ok_of_bind h
  obtain ⟨body, hparse, h⟩ := ok_of_bind h
  obtain ⟨c, hc, rfl⟩ := Backend.compile_ok h
  refine ⟨body, hparse, ?_⟩
  rw [List.length_map, RequestBody.length_operands hc]

/-- The query of a metric binds what it selects besides, the models of the price rules. -/
theorem Metric.plan_length {metric : Metric} {b : Backend} {prices : Pricing.PriceTable}
    {org text : String} {q : Query} (h : metric.plan prices b org text = .ok q) :
    ∃ body, RequestBody.parse text = .ok body ∧
      q.args.length = (metric.selected prices).length + (body.filter.values.length + 3) := by
  obtain ⟨tenant, -, h⟩ := ok_of_bind h
  obtain ⟨body, hparse, h⟩ := ok_of_bind h
  obtain ⟨source, items, p, c, -, hitems, -, hc, rfl⟩ := Backend.select_ok h
  obtain ⟨_, hselected⟩ := metric.selection_ok prices b
  cases hselected.symm.trans hitems
  refine ⟨body, hparse, ?_⟩
  rw [List.length_append, List.length_map, RequestBody.length_operands hc]

theorem Metric.selected_eq_nil {metric : Metric} (h : metric ≠ .totalCost)
    (prices : Pricing.PriceTable) : metric.selected prices = [] := by
  cases metric with
  | totalCost => exact absurd rfl h
  | totalRequests | activeUsers | averageLatency => rfl

/-- The condition of a request, by itself or in the query of a metric that needs no prices, has
no more arguments than SQLite takes, and not half as many as the request has bytes. -/
theorem arguments_within_bytes (b : Backend) (org text : String) (q : Query)
    (h : (∃ table, Program.compile b table org text = .ok q) ∨
      ∃ metric prices, metric ≠ .totalCost ∧ Metric.plan metric prices b org text = .ok q) :
    (∃ body, RequestBody.parse text = .ok body ∧
      q.args.length = body.filter.values.length + 3) ∧
      2 * q.args.length + 3 ≤ text.utf8ByteSize ∧ q.args.length ≤ 32766 := by
  have hlength : ∃ body, RequestBody.parse text = .ok body ∧
      q.args.length = body.filter.values.length + 3 := by
    obtain ⟨table, h⟩ | ⟨metric, prices, hmetric, h⟩ := h
    · exact Program.compile_length h
    · obtain ⟨body, hparse, hargs⟩ := Metric.plan_length h
      rw [Metric.selected_eq_nil hmetric, List.length_nil, Nat.zero_add] at hargs
      exact ⟨body, hparse, hargs⟩
  obtain ⟨body, hparse, hcount⟩ := hlength
  have hbytes := RequestBody.length_values_of_parse hparse
  have hlimit := (RequestBody.parse_ok hparse).1
  rw [RequestBody.maxBytes] at hlimit
  exact ⟨⟨body, hparse, hcount⟩, by omega, by omega⟩

/-! ## A short request for three statuses -/

/-- A request about the first millisecond of 1970, without a key that it can do without. -/
def statusesText : String :=
  "[\x7b\"leaf\":[\"request_response_log\",\"status\",\"in\",[0,1,2]]\x7d,[0,1]]"

def statusesBody : RequestBody where
  filter := .leaf ⟨.requestResponseLog, .status, .in, .list [.int 0, .int 1, .int 2]⟩
  range := ⟨⟨0, 0⟩, ⟨0, 1000000⟩, by decide⟩

theorem parse_statusesText : RequestBody.parse statusesText = .ok statusesBody := by
  have htokens : tokens statusesText.toList =
      [.punct .openArray, .punct .openObject, .text (.ok "leaf"), .punct .colon,
        .punct .openArray, .text (.ok "request_response_log"), .punct .comma,
        .text (.ok "status"), .punct .comma, .text (.ok "in"), .punct .comma,
        .punct .openArray, .number (.ok (.int 0)), .punct .comma, .number (.ok (.int 1)),
        .punct .comma, .number (.ok (.int 2)), .punct .closeArray, .punct .closeArray,
        .punct .closeObject, .punct .comma, .punct .openArray, .number (.ok (.int 0)),
        .punct .comma, .number (.ok (.int 1)), .punct .closeArray, .punct .closeArray] := by
    iterate 27 refine tokensAfter_cons rfl rfl ?_
    exact tokensAfter_nil
  have hwire : RequestBody.decodeWire statusesText =
      .ok ⟨some (.leaf ⟨.requestResponseLog, .status, .in,
        .array [.number (.int 0), .number (.int 1), .number (.int 2)]⟩),
        some (.millis 0, .millis 1)⟩ := by
    rw [RequestBody.decodeWire, decodeWhole, htokens]
    rfl
  rw [RequestBody.parse, hwire]
  rfl

/-- Six arguments out of 63 bytes. -/
theorem statusesText_within_bytes :
    ∃ q, Program.compile .sqlite .requestResponseLog "org_1" statusesText = .ok q ∧
      q.args = [.text "org_1", .int 0, .int 1000, .int 0, .int 1, .int 2] ∧
      2 * q.args.length + 3 ≤ statusesText.utf8ByteSize ∧ q.args.length ≤ 32766 := by
  have hcompile : ∃ q, Program.compile .sqlite .requestResponseLog "org_1" statusesText = .ok q ∧
      q.args = [.text "org_1", .int 0, .int 1000, .int 0, .int 1, .int 2] := by
    rw [Program.compile, parse_statusesText]
    exact ⟨_, rfl, rfl⟩
  obtain ⟨q, hq, hargs⟩ := hcompile
  exact ⟨q, hq, hargs, (arguments_within_bytes _ _ _ q (.inl ⟨_, hq⟩)).2⟩

end RequestLog
