import RequestLog.Proofs.Filter.Wire
import RequestLog.Proofs.Instant.Written

/-!
# Requests as they are documented

A request can be written in many ways, and `Writes` says which values are documented to stand
for it: the keys of an object come in any order, an operand of null and the filter that
matches every row may be left out, an instant is a text or a number. The reader finds the
request again that was written (`parse_of_writes`).

Three limits bound what is read: bytes, levels of the filter, and brackets of the text. A
level opens two brackets and an operand three at most, so a filter within its own limit never
comes near the last.
-/

namespace RequestLog.RequestBody

open Json

/-! ## What is documented -/

/-- An instant, as a text or as milliseconds. -/
inductive WritesInstant (t : Instant) : Json → Prop where
  | text {stamp : Instant.Stamp} {s : String} : stamp.Written s.toList → stamp.instant = t →
      WritesInstant t (.text s)
  | millis {ms : Int} : t.IsMillis ms → Instant.millisRange.1 ≤ ms →
      ms ≤ Instant.millisRange.2 → WritesInstant t (.number (.int ms))

/-- An operand that is not a list. What there is beside null and truth depends on the column. -/
inductive WritesSingle (c : Column) : Scalar → Json → Prop where
  | null : WritesSingle c .null .null
  | bool (b : Bool) : WritesSingle c (.bool b) (.bool b)
  | int {i : Int} : c.kind ≠ .timestamp → Decimal.fitsSigned 64 i = true →
      WritesSingle c (.int i) (.number (.int i))
  | text {s : String} : c.kind ≠ .timestamp → WritesSingle c (.text s) (.text s)
  | timestamp {t : Instant} {v : Json} : c.kind = .timestamp → WritesInstant t v →
      WritesSingle c (.timestamp t) v

inductive WritesOperand (c : Column) : Scalar → Json → Prop where
  | single {x : Scalar} {v : Json} : WritesSingle c x v → WritesOperand c x v
  | list {xs : List Scalar} {vs : List Json} : List.Forall₂ (WritesSingle c) xs vs →
      WritesOperand c (.list xs) (.array vs)

/-- A member that may be left out if what it says is understood. -/
inductive WritesOptional (key : String) (understood : Prop) (writes : Json → Prop) :
    List (String × Json) → Prop where
  | omitted : understood → WritesOptional key understood writes []
  | given {v : Json} : writes v → WritesOptional key understood writes [(key, v)]

inductive WritesLeaf (l : Leaf) : Json → Prop where
  | mk {members value : List (String × Json)} :
      WritesOptional "value" (l.value = .null) (WritesOperand l.column l.value) value →
      members.Perm ([("table", .text l.table.name), ("column", .text l.column.name),
        ("operator", .text l.operator.name)] ++ value) →
      WritesLeaf l (.object members)

inductive WritesFilter : Filter → Json → Prop where
  | all : WritesFilter .all (.text "all")
  | leaf {l : Leaf} {v : Json} : WritesLeaf l v → WritesFilter (.leaf l) (.object [("leaf", v)])
  | branch {left right : Filter} {op : Connective} {members : List (String × Json)}
      {leftValue rightValue : Json} :
      members.Perm [("left", leftValue), ("right", rightValue), ("operator", .text op.name)] →
      WritesFilter left leftValue → WritesFilter right rightValue →
      WritesFilter (.branch left right op) (.object [("branch", .object members)])

inductive WritesRange (r : TimeRange) : Json → Prop where
  | mk {members : List (String × Json)} {start stop : Json} :
      WritesInstant r.start start → WritesInstant r.stop stop →
      members.Perm [("start", start), ("end", stop)] → WritesRange r (.object members)

inductive Writes (body : RequestBody) : Json → Prop where
  | mk {members filter : List (String × Json)} {range : Json} :
      WritesRange body.range range →
      WritesOptional "filter" (body.filter = .all)
        (fun v => v = .null ∧ body.filter = .all ∨ WritesFilter body.filter v) filter →
      members.Perm (filter ++ [("timeFilter", range)]) → Writes body (.object members)

theorem WritesOptional.keys {key : String} {understood : Prop} {writes : Json → Prop}
    {members : List (String × Json)} (h : WritesOptional key understood writes members) :
    (members.map (·.1)).Sublist [key] := by
  cases h with
  | omitted _ => exact List.nil_sublist _
  | given _ => exact List.Sublist.refl _

/-! ## Objects with their keys in any order -/

section

variable {members written : List (String × Json)}

theorem laid_of_perm {δ : Type} {r : Record δ} (hr : r.Strict) (hperm : members.Perm written)
    (hkeys : (written.map (·.1)).Sublist (r.slots.map (·.key))) :
    Laid r members (.object members) := by
  obtain ⟨fields, rfl, hmem⟩ := Record.exists_named fun m hm =>
    hkeys.subset ((hperm.map _).mem_iff.1 (List.mem_map_of_mem hm))
  have hnodup := (hperm.map (·.1)).nodup_iff.2 (hr.keys.sublist hkeys)
  exact ⟨fields, .named (Record.named_keys fields ▸ hnodup) hmem, rfl⟩

theorem get?_of_perm {key : String} {v : Json} (hperm : members.Perm written)
    (hnodup : (written.map (·.1)).Nodup) (h : (key, v) ∈ written) : get? key members = some v :=
  get?_eq_some ((hperm.map (·.1)).nodup_iff.2 hnodup) (hperm.mem_iff.2 h)

theorem get?_none_of_perm {key : String} (hperm : members.Perm written)
    (h : key ∉ written.map (·.1)) : get? key members = none :=
  get?_eq_none fun hin => h ((hperm.map (·.1)).mem_iff.1 hin)

theorem reads_name {α : Type} {names : List String} {value : String → Option α} {room : Nat}
    {key name : String} {a : α} (hvalue : value name = some a)
    (hget : get? key members = some (.text name)) :
    Reads (Choice.constants names value).decode room members key a :=
  ⟨_, hget, Choice.decode_constants_iff.2 ⟨name, hvalue, .inl rfl⟩⟩

end

/-! ## Names -/

theorem table_of_name (t : Table) : Table.ofName? t.name = some t := by
  cases t <;> rfl

theorem column_of_name (c : Column) : Column.ofName? c.name = some c := by
  cases c <;> rfl

theorem operator_of_name (op : Operator) : Operator.ofName? op.name = some op := by
  cases op <;> rfl

theorem connective_of_name (op : Connective) : Connective.ofName? op.name = some op := by
  cases op <;> rfl

/-! ## Instants and operands -/

theorem int64?_of_fits {i : Int} (h : Decimal.fitsSigned 64 i = true) :
    (Number.int i).int64? = some i :=
  if_pos h

theorem int64?_of_millis {ms : Int} (hlower : Instant.millisRange.1 ≤ ms)
    (hupper : ms ≤ Instant.millisRange.2) : (Number.int ms).int64? = some ms := by
  refine int64?_of_fits ?_
  have htwos : Decimal.twos 63 = 2 ^ 63 := rfl
  simp only [Instant.millisRange] at hlower hupper
  simp only [Decimal.fitsSigned, Bool.and_eq_true, decide_eq_true_eq, Nat.reduceSub, htwos]
  omega

section

variable {c : Column} {x : Scalar} {t : Instant} {v : Json} {field : String}

theorem decodeMoment_writes (h : WritesInstant t v) (room : Nat) :
    ∃ m, decodeMoment room v.tree = .ok m ∧ ∀ field, m.resolve field = .ok t := by
  cases h with
  | @text stamp s hwritten hinstant =>
      refine ⟨.text s, decodeMoment_ok_iff.2 (.inl ⟨s, rfl, rfl⟩), fun field => ?_⟩
      rw [Moment.resolve, Instant.Stamp.read_of_written hwritten, hinstant]
  | @millis ms hms hlower hupper =>
      refine ⟨.millis ms, decodeMoment_ok_iff.2
        (.inr ⟨_, ms, rfl, int64?_of_millis hlower hupper, rfl⟩), fun field => ?_⟩
      rw [Moment.resolve, Instant.ofMillis_of_isMillis hms hlower hupper]

theorem kind_cases (c : Column) : c.kind = .timestamp ∨ c.kind = .int ∨ c.kind = .text := by
  cases c <;> decide

theorem singleOperand_writes (h : WritesSingle c x v) (field : String) :
    Filter.singleOperand field c.kind v = .ok x := by
  cases h with
  | null => rfl
  | bool b => rfl
  | @int i htimestamp hi =>
      obtain hkind | hkind | hkind := kind_cases c
      · exact absurd hkind htimestamp
      all_goals
        rw [hkind]
        simp only [Filter.singleOperand, Filter.numberOperand, int64?_of_fits hi]
  | @text s htimestamp =>
      obtain hkind | hkind | hkind := kind_cases c
      · exact absurd hkind htimestamp
      all_goals
        rw [hkind]
        rfl
  | @timestamp t v hkind hinstant =>
      rw [hkind]
      cases hinstant with
      | text hwritten hstamp =>
          simp only [Filter.singleOperand, Filter.textOperand,
            Instant.Stamp.read_of_written hwritten, hstamp]
      | millis hms hlower hupper =>
          simp only [Filter.singleOperand, Filter.numberOperand, int64?_of_millis hlower hupper,
            Option.bind_some, Instant.ofMillis_of_isMillis hms hlower hupper]

/-- Nothing in an operand that can be read is lost when it is read as plain data. -/
theorem toJson_of_single {kind : Kind} (h : Filter.singleOperand field kind v = .ok x)
    (room : Nat) : toJson room v.tree = .ok v := by
  cases v with
  | null | bool | number | text => rfl
  | array | object => cases h

theorem decodeJson_operand {kind : Kind} (h : Filter.operand field kind v = .ok x) {room : Nat}
    (hroom : 1 ≤ room) : decodeJson room v.tree = .ok v := by
  unfold Filter.operand at h
  split at h
  · next items =>
      obtain ⟨room, rfl⟩ := Nat.exists_eq_add_of_le' hroom
      obtain ⟨xs, hxs, -⟩ := ok_of_map h
      have hplain : ∀ v ∈ items, toJson room v.tree = .ok v := by
        intro v hv
        obtain ⟨y, hy⟩ := exists_ok_mapM_iff.1 ⟨xs, hxs⟩ v hv
        exact toJson_of_single hy room
      rw [decodeJson, Json.tree, toJson, itemsToJson_values hplain]
      rfl
  · exact toJson_of_single h room

theorem operand_writes (h : WritesOperand c x v) (field : String) :
    Filter.operand field c.kind v = .ok x := by
  cases h with
  | single h =>
      have hsingle := singleOperand_writes h field
      unfold Filter.operand
      split
      · cases h with
        | timestamp _ hinstant => cases hinstant
      · exact hsingle
  | @list xs vs h =>
      have hitems : List.Forall₂ (fun v x => Filter.singleOperand field c.kind v = .ok x) vs xs :=
        h.flip.imp fun v x hx => singleOperand_writes hx field
      rw [Filter.operand, mapM_of_forall₂ hitems]
      rfl

end

/-! ## Filters -/

theorem depth_pos {ν : Type} (f : FilterOf ν) : 0 < f.depth := by
  cases f <;> rw [FilterOf.depth] <;> omega

/-- A tree as it was written, and the filter that its operands make of it. -/
inductive Means : FilterOf Json → Filter → Prop where
  | all : Means .all .all
  | leaf {l : LeafOf Json} {x : Scalar} :
      Filter.operand (fieldName l.table l.column) l.column.kind l.value = .ok x →
      Means (.leaf l) (.leaf ⟨l.table, l.column, l.operator, x⟩)
  | branch {left right : FilterOf Json} {leftFilter rightFilter : Filter} {op : Connective} :
      Means left leftFilter → Means right rightFilter →
      Means (.branch left right op) (.branch leftFilter rightFilter op)

theorem checkLevel_ok {level : Nat} (h : level ≤ maxDepth) : checkLevel level = .ok () :=
  if_neg (Nat.not_lt.2 h)

theorem resolveFilter_means {w : FilterOf Json} {f : Filter} (h : Means w f) {level : Nat}
    (hlevel : level + f.depth ≤ maxDepth + 1) : resolveFilter level w = .ok f := by
  induction h generalizing level with
  | all =>
      rw [FilterOf.depth] at hlevel
      simp only [resolveFilter, checkLevel_ok (by omega : level ≤ maxDepth), bind, Except.bind]
      rfl
  | leaf hoperand =>
      rw [FilterOf.depth] at hlevel
      simp only [resolveFilter, checkLevel_ok (by omega : level ≤ maxDepth), bind, Except.bind,
        hoperand]
      rfl
  | branch _ _ ihleft ihright =>
      rw [FilterOf.depth] at hlevel
      have hleft : resolveFilter (level + 1) _ = _ := ihleft (by omega)
      have hright : resolveFilter (level + 1) _ = _ := ihright (by omega)
      simp only [resolveFilter, checkLevel_ok (by omega : level ≤ maxDepth), bind, Except.bind,
        hleft, hright]
      rfl

theorem decodeLeaf_writes {l : Leaf} {v : Json} (h : WritesLeaf l v) (room : Nat) :
    ∃ w, decodeLeaf (room + 2) v.tree = .ok w ∧ Means (.leaf w) (.leaf l) := by
  obtain @⟨members, value, hvalue, hperm⟩ := h
  have hkeys : (([("table", .text l.table.name), ("column", .text l.column.name),
      ("operator", .text l.operator.name)] ++ value : List (String × Json)).map (·.1)).Sublist
        (leafRecord.slots.map (·.key)) := by
    rw [List.map_append]
    exact hvalue.keys.append_left _
  have hnodup := leafRecord_strict.keys.sublist hkeys
  have htable : get? "table" members = some (.text l.table.name) :=
    get?_of_perm hperm hnodup (by simp)
  have hcolumn : get? "column" members = some (.text l.column.name) :=
    get?_of_perm hperm hnodup (by simp)
  have hoperator : get? "operator" members = some (.text l.operator.name) :=
    get?_of_perm hperm hnodup (by simp)
  obtain ⟨j, hj, hmeans⟩ : ∃ j, ReadsOr decodeJson .null (room + 1) members "value" j ∧
      Filter.operand (fieldName l.table l.column) l.column.kind j = .ok l.value := by
    cases hvalue with
    | omitted hnull =>
        have hnone : get? "value" members = none := get?_none_of_perm hperm (by simp)
        refine ⟨.null, readsOr_omitted hnone, ?_⟩
        rw [hnull]
        rfl
    | @given v hv =>
        have hsome : get? "value" members = some v := get?_of_perm hperm hnodup (by simp)
        have hread := operand_writes hv (fieldName l.table l.column)
        exact ⟨v, readsOr_given hsome (decodeJson_operand hread (Nat.succ_pos room)), hread⟩
  refine ⟨⟨l.table, l.column, l.operator, j⟩, ?_, .leaf hmeans⟩
  exact decodeLeaf_ok_iff.2 ⟨room + 1, _, members, rfl, rfl,
    laid_of_perm leafRecord_strict hperm hkeys, reads_name (table_of_name _) htable,
    reads_name (column_of_name _) hcolumn, reads_name (operator_of_name _) hoperator, hj⟩

theorem decodeNode_eq (levels : Nat) :
    ∃ inner, OnValues inner ∧ decodeNode levels = (nodeChoice inner).decode := by
  cases levels with
  | zero => exact ⟨_, fun _ _ _ h => (by cases h), rfl⟩
  | succ levels => exact ⟨_, onValues_node levels, rfl⟩

theorem decodeNode_writes {f : Filter} {v : Json} (h : WritesFilter f v) {levels room : Nat}
    (hlevels : f.depth ≤ levels + 1) (hroom : 2 * f.depth + 1 ≤ room) :
    ∃ w, decodeNode levels room v.tree = .ok w ∧ Means w f := by
  induction h generalizing levels room with
  | all =>
      obtain ⟨inner, -, heq⟩ := decodeNode_eq levels
      rw [heq]
      exact ⟨.all, nodeChoice_ok_iff.2 (.inl ⟨rfl, .inl rfl⟩), .all⟩
  | leaf hleaf =>
      rw [FilterOf.depth] at hroom
      obtain ⟨room, rfl⟩ := Nat.exists_eq_add_of_le' hroom
      obtain ⟨inner, -, heq⟩ := decodeNode_eq levels
      obtain ⟨w, hw, hmeans⟩ := decodeLeaf_writes hleaf room
      rw [heq]
      exact ⟨.leaf w, nodeChoice_ok_iff.2 (.inr ⟨room + 2, _, rfl, .inl ⟨w, rfl, rfl, hw⟩⟩), hmeans⟩
  | @branch left right op members _ _ hperm _ _ ihleft ihright =>
      rw [FilterOf.depth] at hlevels hroom
      have hpos := depth_pos left
      obtain ⟨levels, rfl⟩ : ∃ n, levels = n + 1 := ⟨levels - 1, by omega⟩
      -- A level opens two brackets, the one of the name and the one of the branch.
      obtain ⟨room, rfl⟩ : ∃ n, room = n + 2 := ⟨room - 2, by omega⟩
      obtain ⟨leftWire, hleft, hleftMeans⟩ : ∃ w, decodeNode levels room _ = .ok w ∧ _ :=
        ihleft (by omega) (by omega)
      obtain ⟨rightWire, hright, hrightMeans⟩ : ∃ w, decodeNode levels room _ = .ok w ∧ _ :=
        ihright (by omega) (by omega)
      have hkeys := List.Sublist.refl ((branchRecord (decodeNode levels)).slots.map (·.key))
      have hnodup := (@branchRecord_strict (decodeNode levels)).keys
      have hbranch := (decodeBranch_ok_iff (onValues_node levels)).2
        ⟨room, _, _, leftWire, rightWire, _, rfl, rfl, rfl, laid_of_perm branchRecord_strict hperm hkeys,
          ⟨_, get?_of_perm hperm hnodup (by simp), hleft⟩,
          ⟨_, get?_of_perm hperm hnodup (by simp), hright⟩,
          reads_name (connective_of_name op) (get?_of_perm hperm hnodup (by simp))⟩
      exact ⟨_, nodeChoice_ok_iff.2 (.inr ⟨room + 1, _, rfl, .inr ⟨rfl, hbranch⟩⟩),
        .branch hleftMeans hrightMeans⟩

/-! ## Requests -/

theorem decodeRange_writes {r : TimeRange} {v : Json} (h : WritesRange r v) (room : Nat) :
    ∃ start stop, decodeRange (room + 1) v.tree = .ok (start, stop) ∧
      (∀ field, start.resolve field = .ok r.start) ∧ ∀ field, stop.resolve field = .ok r.stop := by
  obtain ⟨hstart, hstop, hperm⟩ := h
  have hkeys := List.Sublist.refl (rangeRecord.slots.map (·.key))
  have hnodup := rangeRecord_strict.keys
  obtain ⟨start, hreadStart, hresolveStart⟩ := decodeMoment_writes hstart room
  obtain ⟨stop, hreadStop, hresolveStop⟩ := decodeMoment_writes hstop room
  refine ⟨start, stop, ?_, hresolveStart, hresolveStop⟩
  exact decodeRange_ok_iff.2 ⟨room, _, _, rfl, rfl, laid_of_perm rangeRecord_strict hperm hkeys,
    ⟨_, get?_of_perm hperm hnodup (by simp), hreadStart⟩,
    ⟨_, get?_of_perm hperm hnodup (by simp), hreadStop⟩⟩

/-- The filter a wire has, where none stands for the one that matches every row. -/
def Wire.Filters (w : Option (FilterOf Json)) (f : Filter) : Prop :=
  w = none ∧ f = .all ∨ ∃ node, w = some node ∧ Means node f

/-- The body's own bracket taken, there is room for more than a filter needs. -/
theorem decodeFilter_writes {f : Filter} {v : Json}
    (h : v = .null ∧ f = .all ∨ WritesFilter f v) (hdepth : f.depth ≤ maxDepth) :
    ∃ w, decodeOption (decodeNode nestingRoom) 126 v.tree = .ok w ∧ Wire.Filters w f := by
  obtain ⟨rfl, hall⟩ | hfilter := h
  · exact ⟨none, rfl, .inl ⟨rfl, hall⟩⟩
  · have hnull : v ≠ .null := by
      rintro rfl
      cases hfilter
    have hlevels : f.depth ≤ nestingRoom + 1 := Nat.le_trans hdepth (by decide)
    have hroom : 2 * f.depth + 1 ≤ 126 := by
      rw [maxDepth] at hdepth
      omega
    obtain ⟨node, hnode, hmeans⟩ := decodeNode_writes hfilter hlevels hroom
    refine ⟨some node, ?_, .inr ⟨node, rfl, hmeans⟩⟩
    rw [decodeOption_value hnull, hnode]
    rfl

theorem decodeWire_writes {text : String} {v : Json} {body : RequestBody}
    (htext : v.Written text.toList) (hbody : Writes body v)
    (hdepth : body.filter.depth ≤ maxDepth) :
    ∃ w start stop, decodeWire text = .ok ⟨w, some (start, stop)⟩ ∧ Wire.Filters w body.filter ∧
      (∀ field, start.resolve field = .ok body.range.start) ∧
      ∀ field, stop.resolve field = .ok body.range.stop := by
  obtain @⟨members, filter, range, hrange, hfilter, hperm⟩ := hbody
  have hkeys : ((filter ++ [("timeFilter", range)]).map (·.1)).Sublist
      (bodyRecord.slots.map (·.key)) := by
    rw [List.map_append]
    exact hfilter.keys.append_right _
  have hnodup := bodyRecord_strict.keys.sublist hkeys
  obtain ⟨w, hw, hfilters⟩ : ∃ w, ReadsOr (decodeOption (decodeNode nestingRoom)) none 126
      members "filter" w ∧ Wire.Filters w body.filter := by
    cases hfilter with
    | omitted hall =>
        have hnone : get? "filter" members = none := get?_none_of_perm hperm (by simp)
        exact ⟨none, readsOr_omitted hnone, .inl ⟨rfl, hall⟩⟩
    | @given v hv =>
        have hsome : get? "filter" members = some v := get?_of_perm hperm hnodup (by simp)
        obtain ⟨w, hw, hfilters⟩ := decodeFilter_writes hv hdepth
        exact ⟨w, readsOr_given hsome hw, hfilters⟩
  obtain ⟨start, stop, hends, hstart, hstop⟩ := decodeRange_writes hrange 125
  refine ⟨w, start, stop, ?_, hfilters, hstart, hstop⟩
  have hsome : get? "timeFilter" members = some range := get?_of_perm hperm hnodup (by simp)
  have hoption : decodeOption decodeRange 126 range.tree = .ok (some (start, stop)) := by
    have hnull : range ≠ .null := by
      rintro rfl
      cases hrange
    rw [decodeOption_value hnull, hends]
    rfl
  exact decodeWire_ok_iff.2 ⟨126, _, members, rfl, htext,
    laid_of_perm bodyRecord_strict hperm hkeys, hw, readsOr_given hsome hoption⟩

/-- A request that was written as it is documented, within its limits, is read back. -/
theorem parse_of_writes {text : String} {v : Json} {body : RequestBody}
    (htext : v.Written text.toList) (hbody : Writes body v)
    (hdepth : body.filter.depth ≤ 32) (hsize : text.utf8ByteSize ≤ 65536) :
    parse text = .ok body := by
  obtain ⟨w, start, stop, hwire, hfilters, hstart, hstop⟩ := decodeWire_writes htext hbody hdepth
  have hrange : TimeRange.ofEnds body.range.start body.range.stop = .ok body.range :=
    dif_pos body.range.ordered
  have hshort : ¬ maxBytes < text.utf8ByteSize := Nat.not_lt.2 hsize
  rw [parse, if_neg hshort, hwire]
  simp only [ofWire, hstart, hstop, hrange, bind, Except.bind]
  obtain ⟨rfl, hall⟩ | ⟨node, rfl, hmeans⟩ := hfilters
  · rw [← hall]
    rfl
  · have hlevel : 1 + body.filter.depth ≤ maxDepth + 1 := by
      rw [Nat.add_comm]
      exact Nat.succ_le_succ hdepth
    have hresolve := resolveFilter_means hmeans hlevel
    simp only [hresolve]
    rfl

/-! ## A request for one status -/

def rangePart : String :=
  "\x7b \"timeFilter\":\x7b\"end\":1704067200000,\"start\":\"2023-12-31T22:59:59.5-01:00\"\x7d, "

def filterPart : String :=
  "\"filter\":\x7b\"leaf\":\x7b\"value\":[200,null],\"table\":\"response\",\"column\":\"st\\u0061tus\",\"operator\":\"in\"\x7d\x7d\x7d"

/-- Its keys are in no order of their own, and its two instants in different notations. -/
def statusText : String := rangePart ++ filterPart

def statusBody : RequestBody where
  filter := .leaf ⟨.response, .status, .in, .list [.int 200, .null]⟩
  range := ⟨⟨1704067199, 500000000⟩, ⟨1704067200, 0⟩, by decide⟩

def statusLeaf : Json :=
  .object [("value", .array [.number (.int 200), .null]), ("table", .text "response"),
    ("column", .text "status"), ("operator", .text "in")]

def statusRange : Json :=
  .object [("end", .number (.int 1704067200000)), ("start", .text "2023-12-31T22:59:59.5-01:00")]

/-- An hour west of universal time, half a second before the year ends there. -/
def statusStart : Instant.Stamp where
  year := 2023
  month := 12
  day := 31
  hour := 22
  minute := 59
  second := 59
  fraction := ['5']
  zone := .west 1 0
  monthExists := by decide
  dayExists := by decide
  digits := List.forall_mem_singleton.2 rfl
  places := by decide

theorem statusStart_instant : statusStart.instant = ⟨1704067199, 500000000⟩ := by
  rw [Instant.Stamp.instant, ← Instant.toDays_eq (by decide) (by decide) (by decide)]
  rfl

theorem statusText_written :
    (Json.object [("timeFilter", statusRange), ("filter", .object [("leaf", statusLeaf)])]).Written
      statusText.toList := by
  have htokens : tokens statusText.toList =
      [.punct .openObject, .text (.ok "timeFilter"), .punct .colon,
        .punct .openObject, .text (.ok "end"), .punct .colon,
        .number (.ok (.int 1704067200000)), .punct .comma, .text (.ok "start"), .punct .colon,
        .text (.ok "2023-12-31T22:59:59.5-01:00"), .punct .closeObject, .punct .comma,
        .text (.ok "filter"), .punct .colon, .punct .openObject, .text (.ok "leaf"),
        .punct .colon, .punct .openObject, .text (.ok "value"), .punct .colon,
        .punct .openArray, .number (.ok (.int 200)), .punct .comma, .null, .punct .closeArray,
        .punct .comma, .text (.ok "table"), .punct .colon, .text (.ok "response"), .punct .comma,
        .text (.ok "column"), .punct .colon, .text (.ok "status"), .punct .comma,
        .text (.ok "operator"), .punct .colon, .text (.ok "in"), .punct .closeObject,
        .punct .closeObject, .punct .closeObject] := by
    rw [statusText, String.toList_append]
    refine tokensAfter_cons rfl rfl ((tokensAfter_space rfl).trans ?_)
    iterate 11 refine tokensAfter_cons rfl rfl ?_
    refine tokensAfter_cons rfl rfl ((tokensAfter_space rfl).trans ?_)
    iterate 28 refine tokensAfter_cons rfl rfl ?_
    exact tokensAfter_nil
  refine written_of_tokens (htokens.trans ?_)
  simp only [statusRange, statusLeaf, tree, itemsOf, membersOf, Tree.tokens, Items.tokens,
    Items.more, Members.tokens, Members.more, List.cons_append, List.nil_append]

theorem statusLeaf_writes :
    WritesLeaf ⟨.response, .status, .in, .list [.int 200, .null]⟩ statusLeaf := by
  have hvalue : WritesOperand .status (.list [.int 200, .null])
      (.array [.number (.int 200), .null]) :=
    .list (.cons (.int (by decide) (by decide)) (.cons .null .nil))
  exact .mk (.given hvalue) (List.perm_append_singleton _ _).symm

theorem statusRange_writes : WritesRange statusBody.range statusRange := by
  have hstart : WritesInstant statusBody.range.start (.text "2023-12-31T22:59:59.5-01:00") :=
    .text (@Instant.Stamp.Written.mk statusStart 'T' _ (by decide) (.west 1 0)) statusStart_instant
  have hstop : WritesInstant statusBody.range.stop (.number (.int 1704067200000)) :=
    .millis ⟨rfl, by decide⟩ (by decide) (by decide)
  exact .mk hstart hstop (.swap _ _ _)

theorem statusText_parsed : parse statusText = .ok statusBody :=
  parse_of_writes statusText_written
    (.mk statusRange_writes (.given (.inr (.leaf statusLeaf_writes))) (.swap _ _ _))
    (by decide) (by decide +kernel)

end RequestLog.RequestBody
