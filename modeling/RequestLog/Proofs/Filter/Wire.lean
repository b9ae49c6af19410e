import RequestLog.Filter.Body
import RequestLog.Proofs.Json.Decode

/-!
# The shape of a request, as it is read

For every part of a request it is said which values it is read from, and what they hold:
one equivalence for each of the four records, and one for the nodes of a filter. What
requests are accepted, and what a documented one stands for, both follow from them.
-/

namespace RequestLog.RequestBody

open Json

/-- Values laid out as a record, given with the keys of their fields. -/
def Laid {δ : Type} (r : Record δ) (fields : List (String × Json)) (v : Json) : Prop :=
  ∃ slots, r.Laid slots v ∧ Record.named slots = fields

/-- The value under a key was given and is read. -/
def Reads {α : Type} (read : Decoder α) (room : Nat) (fields : List (String × Json)) (key : String)
    (a : α) : Prop :=
  ∃ w, get? key fields = some w ∧ read room w.tree = .ok a

/-- The value under a key is read, and where none was given there is another. -/
def ReadsOr {α : Type} (read : Decoder α) (default : α) (room : Nat)
    (fields : List (String × Json)) (key : String) (a : α) : Prop :=
  (match get? key fields with
    | some w => read room w.tree
    | none => .ok default) = .ok a

theorem Reads.fills {α : Type} {read : Decoder α} {room : Nat} {fields : List (String × Json)}
    {key : String} {a : α} (h : Reads read room fields key a) (w : Json)
    (hw : get? key fields = some w) : ∃ c, (read room w.tree).map some = .ok c := by
  obtain ⟨w', hw', hread⟩ := h
  obtain rfl := Option.some.inj (hw'.symm.trans hw)
  exact ⟨some a, by rw [hread]; rfl⟩

theorem ReadsOr.fills {α : Type} {read : Decoder α} {default : α} {room : Nat}
    {fields : List (String × Json)} {key : String} {a : α}
    (h : ReadsOr read default room fields key a) (w : Json) (hw : get? key fields = some w) :
    read room w.tree = .ok a := by
  rw [ReadsOr, hw] at h
  exact h

theorem readsOr_given {α : Type} {read : Decoder α} {default : α} {room : Nat}
    {fields : List (String × Json)} {key : String} {w : Json} {a : α}
    (hget : get? key fields = some w) (hread : read room w.tree = .ok a) :
    ReadsOr read default room fields key a := by
  rw [ReadsOr, hget]
  exact hread

theorem readsOr_omitted {α : Type} {read : Decoder α} {default : α} {room : Nat}
    {fields : List (String × Json)} {key : String} (hget : get? key fields = none) :
    ReadsOr read default room fields key default := by
  rw [ReadsOr, hget]

/-! ## Leaves -/

theorem leafRecord_strict : leafRecord.Strict := ⟨rfl, rfl, by decide, by decide⟩

theorem leafRecord_onValues : ∀ slot ∈ leafRecord.slots, slot.OnValues := by
  intro slot hslot
  simp only [leafRecord, List.mem_cons, List.not_mem_nil, or_false] at hslot
  obtain rfl | rfl | rfl | rfl := hslot
  · exact Slot.onValues_map Choice.onValues_constants
  · exact Slot.onValues_map Choice.onValues_constants
  · exact Slot.onValues_map Choice.onValues_constants
  · exact Slot.onValues_map onValues_json

theorem leafRecord_fields :
    (leafRecord.Field "table" (·.table) fun room t => (tableChoice.decode room t).map some) ∧
    (leafRecord.Field "column" (·.column) fun room t => (columnChoice.decode room t).map some) ∧
    (leafRecord.Field "operator" (·.operator)
      fun room t => (operatorChoice.decode room t).map some) ∧
    leafRecord.Field "value" (·.value) fun room t => (decodeJson room t).map some := by
  refine ⟨?_, ?_, ?_, ?_⟩ <;>
    (intro slot hslot
     simp only [leafRecord, List.mem_cons, List.not_mem_nil, or_false] at hslot
     obtain rfl | rfl | rfl | rfl := hslot <;>
       first
       | exact .inl ⟨rfl, Slot.sets_map fun _ _ => rfl⟩
       | exact .inr ⟨by decide, Slot.keeps_map fun _ _ => rfl⟩)

theorem decodeLeaf_ok_iff {room : Nat} {t : Tree} {l : LeafOf Json} :
    decodeLeaf room t = .ok l ↔
      ∃ room' v fields, room = room' + 1 ∧ t = tree v ∧ Laid leafRecord fields v ∧
        Reads tableChoice.decode room' fields "table" l.table ∧
        Reads columnChoice.decode room' fields "column" l.column ∧
        Reads operatorChoice.decode room' fields "operator" l.operator ∧
        ReadsOr decodeJson .null room' fields "value" l.value := by
  obtain ⟨htable, hcolumn, hoperator, hvalue⟩ := leafRecord_fields
  constructor
  · intro h
    obtain ⟨d, hd, h⟩ := ok_of_bind h
    obtain ⟨table, ht, h⟩ := ok_of_bind h
    obtain ⟨column, hc, h⟩ := ok_of_bind h
    obtain ⟨operator, ho, h⟩ := ok_of_bind h
    cases h
    rw [require_ok_iff] at ht hc ho
    obtain ⟨room, v, slots, rfl, rfl, hlaid, hfill⟩ :=
      (Record.decode_ok_iff leafRecord_strict leafRecord_onValues).1 hd
    have hnodup := hlaid.nodup leafRecord_strict
    refine ⟨room, v, _, rfl, rfl, ⟨slots, hlaid, rfl⟩, ?_, ?_, ?_, ?_⟩
    · exact (htable.some_iff rfl hnodup hlaid.mem hfill).1 ht
    · exact (hcolumn.some_iff rfl hnodup hlaid.mem hfill).1 hc
    · exact (hoperator.some_iff rfl hnodup hlaid.mem hfill).1 ho
    · exact hvalue.getD_eq rfl hnodup hlaid.mem hfill
  · rintro ⟨room, v, fields, rfl, rfl, ⟨slots, hlaid, rfl⟩, ht, hc, ho, hv⟩
    have hnodup := hlaid.nodup leafRecord_strict
    have hmem := hlaid.mem
    obtain ⟨d, hfill⟩ : ∃ d, Record.fill room slots {} = .ok d := by
      refine Record.exists_fill (fun f hf => ?_) _
      have hkey := List.mem_map_of_mem (f := Slot.key) (hmem f hf)
      simp only [leafRecord, List.map_cons, List.map_nil, List.mem_cons, List.not_mem_nil,
        or_false] at hkey
      obtain hkey | hkey | hkey | hkey := hkey
      · exact htable.fills hnodup hmem hf hkey ht.fills
      · exact hcolumn.fills hnodup hmem hf hkey hc.fills
      · exact hoperator.fills hnodup hmem hf hkey ho.fills
      · exact hvalue.fills hnodup hmem hf hkey fun w hw => ⟨some l.value, by rw [hv.fills w hw]; rfl⟩
    have hdecode : leafRecord.decode {} (room + 1) v.tree = .ok d :=
      (Record.decode_ok_iff leafRecord_strict leafRecord_onValues).2
        ⟨room, v, slots, rfl, rfl, hlaid, hfill⟩
    have htable := (htable.some_iff rfl hnodup hmem hfill).2 ht
    have hcolumn := (hcolumn.some_iff rfl hnodup hmem hfill).2 hc
    have hoperator := (hoperator.some_iff rfl hnodup hmem hfill).2 ho
    have hvalue := Except.ok.inj ((hvalue.getD_eq rfl hnodup hmem hfill).symm.trans hv)
    simp only [decodeLeaf, hdecode, htable, hcolumn, hoperator, hvalue, require, bind, Except.bind]
    rfl

/-! ## Branches -/

section

variable {node : Decoder (FilterOf Json)}

theorem branchRecord_strict : (branchRecord node).Strict :=
  ⟨rfl, rfl, by simp [branchRecord], by simp [branchRecord]⟩

theorem branchRecord_onValues (hnode : OnValues node) :
    ∀ slot ∈ (branchRecord node).slots, slot.OnValues := by
  intro slot hslot
  simp only [branchRecord, List.mem_cons, List.not_mem_nil, or_false] at hslot
  obtain rfl | rfl | rfl := hslot
  · exact Slot.onValues_map hnode
  · exact Slot.onValues_map hnode
  · exact Slot.onValues_map Choice.onValues_constants

variable (node) in
theorem branchRecord_fields :
    ((branchRecord node).Field "left" (·.left) fun room t => (node room t).map some) ∧
    ((branchRecord node).Field "right" (·.right) fun room t => (node room t).map some) ∧
    (branchRecord node).Field "operator" (·.operator)
      fun room t => (connectiveChoice.decode room t).map some := by
  refine ⟨?_, ?_, ?_⟩ <;>
    (intro slot hslot
     simp only [branchRecord, List.mem_cons, List.not_mem_nil, or_false] at hslot
     obtain rfl | rfl | rfl := hslot <;>
       first
       | exact .inl ⟨rfl, Slot.sets_map fun _ _ => rfl⟩
       | exact .inr ⟨by simp, Slot.keeps_map fun _ _ => rfl⟩)

theorem decodeBranch_ok_iff (hnode : OnValues node) {room : Nat} {t : Tree} {f : FilterOf Json} :
    decodeBranch node room t = .ok f ↔
      ∃ room' v fields left right op, room = room' + 1 ∧ t = tree v ∧
        f = .branch left right op ∧ Laid (branchRecord node) fields v ∧
        Reads node room' fields "left" left ∧ Reads node room' fields "right" right ∧
        Reads connectiveChoice.decode room' fields "operator" op := by
  obtain ⟨hleft, hright, hoperator⟩ := branchRecord_fields node
  constructor
  · intro h
    obtain ⟨d, hd, h⟩ := ok_of_bind h
    obtain ⟨left, hl, h⟩ := ok_of_bind h
    obtain ⟨right, hr, h⟩ := ok_of_bind h
    obtain ⟨op, ho, h⟩ := ok_of_bind h
    cases h
    rw [require_ok_iff] at hl hr ho
    obtain ⟨room, v, slots, rfl, rfl, hlaid, hfill⟩ :=
      (Record.decode_ok_iff branchRecord_strict (branchRecord_onValues hnode)).1 hd
    have hnodup := hlaid.nodup branchRecord_strict
    refine ⟨room, v, _, left, right, op, rfl, rfl, rfl, ⟨slots, hlaid, rfl⟩, ?_, ?_, ?_⟩
    · exact (hleft.some_iff rfl hnodup hlaid.mem hfill).1 hl
    · exact (hright.some_iff rfl hnodup hlaid.mem hfill).1 hr
    · exact (hoperator.some_iff rfl hnodup hlaid.mem hfill).1 ho
  · rintro ⟨room, v, fields, left, right, op, rfl, rfl, rfl, ⟨slots, hlaid, rfl⟩, hl, hr, ho⟩
    have hnodup := hlaid.nodup branchRecord_strict
    have hmem := hlaid.mem
    obtain ⟨d, hfill⟩ : ∃ d, Record.fill room slots {} = .ok d := by
      refine Record.exists_fill (fun f hf => ?_) _
      have hkey := List.mem_map_of_mem (f := Slot.key) (hmem f hf)
      simp only [branchRecord, List.map_cons, List.map_nil, List.mem_cons, List.not_mem_nil,
        or_false] at hkey
      obtain hkey | hkey | hkey := hkey
      · exact hleft.fills hnodup hmem hf hkey hl.fills
      · exact hright.fills hnodup hmem hf hkey hr.fills
      · exact hoperator.fills hnodup hmem hf hkey ho.fills
    have hdecode : (branchRecord node).decode {} (room + 1) v.tree = .ok d :=
      (Record.decode_ok_iff branchRecord_strict (branchRecord_onValues hnode)).2
        ⟨room, v, slots, rfl, rfl, hlaid, hfill⟩
    have hleft := (hleft.some_iff rfl hnodup hmem hfill).2 hl
    have hright := (hright.some_iff rfl hnodup hmem hfill).2 hr
    have hoperator := (hoperator.some_iff rfl hnodup hmem hfill).2 ho
    simp only [decodeBranch, hdecode, hleft, hright, hoperator, require, bind, Except.bind]
    rfl

end

/-! ## Nodes -/

theorem nodeChoice_plain {inner : Decoder (FilterOf Json)} {name : String} {f : FilterOf Json}
    (h : (nodeChoice inner).plain name = some (.ok f)) : name = "all" ∧ f = .all := by
  simp only [nodeChoice] at h
  split at h
  · cases h
    exact ⟨rfl, rfl⟩
  · cases h
  · cases h
  · cases h

theorem nodeChoice_keyed {inner read : Decoder (FilterOf Json)} {name : String}
    (h : (nodeChoice inner).keyed name = some read) :
    (name = "all" ∧ read = decodeUnit .all) ∨
    (name = "leaf" ∧ read = fun room t => (decodeLeaf room t).map .leaf) ∨
    name = "branch" ∧ read = decodeBranch inner := by
  simp only [nodeChoice] at h
  split at h
  · exact .inl ⟨rfl, (Option.some.inj h).symm⟩
  · exact .inr (.inl ⟨rfl, (Option.some.inj h).symm⟩)
  · exact .inr (.inr ⟨rfl, (Option.some.inj h).symm⟩)
  · cases h

theorem onValues_leaf : OnValues decodeLeaf := by
  intro room t l h
  obtain ⟨_, v, _, _, rfl, -⟩ := decodeLeaf_ok_iff.1 h
  exact ⟨v, rfl⟩

theorem onValues_nodeChoice {inner : Decoder (FilterOf Json)} (hinner : OnValues inner) :
    OnValues (nodeChoice inner).decode := by
  refine Choice.onValues fun name read hkeyed => ?_
  obtain ⟨-, rfl⟩ | ⟨-, rfl⟩ | ⟨-, rfl⟩ := nodeChoice_keyed hkeyed
  · exact onValues_unit
  · exact onValues_leaf.map
  · intro room t f h
    obtain ⟨_, v, _, _, _, _, _, rfl, -⟩ := (decodeBranch_ok_iff hinner).1 h
    exact ⟨v, rfl⟩

/-- What a node is read from, when `inner` reads the nodes below it. -/
theorem nodeChoice_ok_iff {inner : Decoder (FilterOf Json)} {room : Nat} {v : Json}
    {f : FilterOf Json} :
    (nodeChoice inner).decode room v.tree = .ok f ↔
      (f = .all ∧ (v = .text "all" ∨ room ≠ 0 ∧ v = .object [("all", .null)])) ∨
      ∃ room' w, room = room' + 1 ∧
        ((∃ l, v = .object [("leaf", w)] ∧ f = .leaf l ∧ decodeLeaf room' w.tree = .ok l) ∨
          v = .object [("branch", w)] ∧ decodeBranch inner room' w.tree = .ok f) := by
  rw [Choice.decode_value_iff]
  constructor
  · rintro (⟨name, rfl, hplain⟩ | ⟨room, name, w, read, rfl, rfl, hkeyed, hread⟩)
    · obtain ⟨rfl, rfl⟩ := nodeChoice_plain hplain
      exact .inl ⟨rfl, .inl rfl⟩
    · obtain ⟨rfl, rfl⟩ | ⟨rfl, rfl⟩ | ⟨rfl, rfl⟩ := nodeChoice_keyed hkeyed
      · obtain ⟨rfl, rfl⟩ := decodeUnit_ok_iff.1 hread
        exact .inl ⟨rfl, .inr ⟨Nat.succ_ne_zero room, rfl⟩⟩
      · obtain ⟨l, hl, rfl⟩ := ok_of_map hread
        exact .inr ⟨room, w, rfl, .inl ⟨l, rfl, rfl, hl⟩⟩
      · exact .inr ⟨room, w, rfl, .inr ⟨rfl, hread⟩⟩
  · rintro (⟨rfl, rfl | ⟨hroom, rfl⟩⟩ | ⟨room, w, rfl, ⟨l, rfl, rfl, hl⟩ | ⟨rfl, hf⟩⟩)
    · exact .inl ⟨"all", rfl, rfl⟩
    · obtain ⟨room, rfl⟩ := Nat.exists_eq_succ_of_ne_zero hroom
      exact .inr ⟨room, "all", .null, _, rfl, rfl, rfl, rfl⟩
    · exact .inr ⟨room, "leaf", w, _, rfl, rfl, rfl, by rw [hl]; rfl⟩
    · exact .inr ⟨room, "branch", w, _, rfl, rfl, rfl, hf⟩

theorem onValues_node (levels : Nat) : OnValues (decodeNode levels) := by
  induction levels with
  | zero => exact onValues_nodeChoice fun _ _ _ h => by cases h
  | succ levels ih => exact onValues_nodeChoice ih

/-! ## Time ranges -/

theorem decodeMoment_ok_iff {room : Nat} {v : Json} {m : Moment} :
    decodeMoment room v.tree = .ok m ↔
      (∃ s, v = .text s ∧ m = .text s) ∨
      ∃ n ms, v = .number n ∧ n.int64? = some ms ∧ m = .millis ms := by
  constructor
  · intro h
    obtain ⟨j, hj, hm⟩ := ok_of_bind h
    cases v with
    | text s =>
        cases hj
        cases hm
        exact .inl ⟨s, rfl, rfl⟩
    | number n =>
        cases hj
        simp only at hm
        split at hm
        · next ms hms =>
            cases hm
            exact .inr ⟨n, ms, rfl, hms, rfl⟩
        · cases hm
    | null =>
        cases hj
        cases hm
    | bool b =>
        cases hj
        cases hm
    | array items =>
        cases room with
        | zero => cases hj
        | succ room =>
            obtain ⟨js, -, rfl⟩ := ok_of_map hj
            cases hm
    | object members =>
        cases room with
        | zero => cases hj
        | succ room =>
            obtain ⟨js, -, rfl⟩ := ok_of_map hj
            cases hm
  · rintro (⟨s, rfl, rfl⟩ | ⟨n, ms, rfl, hms, rfl⟩)
    · rfl
    · simp only [decodeMoment, decodeJson, Json.tree, toJson, Except.map, bind, Except.bind, hms]
      rfl

theorem onValues_moment : OnValues decodeMoment := by
  intro room t m h
  obtain ⟨j, hj, -⟩ := ok_of_bind h
  exact onValues_json room t j hj

theorem rangeRecord_strict : rangeRecord.Strict := ⟨rfl, rfl, by decide, by decide⟩

theorem rangeRecord_onValues : ∀ slot ∈ rangeRecord.slots, slot.OnValues := by
  intro slot hslot
  simp only [rangeRecord, List.mem_cons, List.not_mem_nil, or_false] at hslot
  obtain rfl | rfl := hslot <;> exact Slot.onValues_map onValues_moment

theorem rangeRecord_fields :
    (rangeRecord.Field "start" (·.start) fun room t => (decodeMoment room t).map some) ∧
    rangeRecord.Field "end" (·.stop) fun room t => (decodeMoment room t).map some := by
  refine ⟨?_, ?_⟩ <;>
    (intro slot hslot
     simp only [rangeRecord, List.mem_cons, List.not_mem_nil, or_false] at hslot
     obtain rfl | rfl := hslot <;>
       first
       | exact .inl ⟨rfl, Slot.sets_map fun _ _ => rfl⟩
       | exact .inr ⟨by decide, Slot.keeps_map fun _ _ => rfl⟩)

theorem decodeRange_ok_iff {room : Nat} {t : Tree} {ends : Moment × Moment} :
    decodeRange room t = .ok ends ↔
      ∃ room' v fields, room = room' + 1 ∧ t = tree v ∧ Laid rangeRecord fields v ∧
        Reads decodeMoment room' fields "start" ends.1 ∧
        Reads decodeMoment room' fields "end" ends.2 := by
  obtain ⟨hstart, hend⟩ := rangeRecord_fields
  constructor
  · intro h
    obtain ⟨d, hd, h⟩ := ok_of_bind h
    obtain ⟨start, hs, h⟩ := ok_of_bind h
    obtain ⟨stop, he, h⟩ := ok_of_bind h
    cases h
    rw [require_ok_iff] at hs he
    obtain ⟨room, v, slots, rfl, rfl, hlaid, hfill⟩ :=
      (Record.decode_ok_iff rangeRecord_strict rangeRecord_onValues).1 hd
    have hnodup := hlaid.nodup rangeRecord_strict
    refine ⟨room, v, _, rfl, rfl, ⟨slots, hlaid, rfl⟩, ?_, ?_⟩
    · exact (hstart.some_iff rfl hnodup hlaid.mem hfill).1 hs
    · exact (hend.some_iff rfl hnodup hlaid.mem hfill).1 he
  · rintro ⟨room, v, fields, rfl, rfl, ⟨slots, hlaid, rfl⟩, hs, he⟩
    have hnodup := hlaid.nodup rangeRecord_strict
    have hmem := hlaid.mem
    obtain ⟨d, hfill⟩ : ∃ d, Record.fill room slots {} = .ok d := by
      refine Record.exists_fill (fun f hf => ?_) _
      have hkey := List.mem_map_of_mem (f := Slot.key) (hmem f hf)
      simp only [rangeRecord, List.map_cons, List.map_nil, List.mem_cons, List.not_mem_nil,
        or_false] at hkey
      obtain hkey | hkey := hkey
      · exact hstart.fills hnodup hmem hf hkey hs.fills
      · exact hend.fills hnodup hmem hf hkey he.fills
    have hdecode : rangeRecord.decode {} (room + 1) v.tree = .ok d :=
      (Record.decode_ok_iff rangeRecord_strict rangeRecord_onValues).2
        ⟨room, v, slots, rfl, rfl, hlaid, hfill⟩
    have hstart := (hstart.some_iff rfl hnodup hmem hfill).2 hs
    have hend := (hend.some_iff rfl hnodup hmem hfill).2 he
    simp only [decodeRange, hdecode, hstart, hend, require, bind, Except.bind]
    rfl

/-! ## Bodies -/

theorem bodyRecord_strict : bodyRecord.Strict := ⟨rfl, rfl, by decide, by decide⟩

theorem bodyRecord_onValues : ∀ slot ∈ bodyRecord.slots, slot.OnValues := by
  intro slot hslot
  simp only [bodyRecord, List.mem_cons, List.not_mem_nil, or_false] at hslot
  obtain rfl | rfl := hslot
  · exact Slot.onValues_map (onValues_option (onValues_node nestingRoom))
  · refine Slot.onValues_map (onValues_option fun room t ends h => ?_)
    obtain ⟨_, v, _, _, rfl, -⟩ := decodeRange_ok_iff.1 h
    exact ⟨v, rfl⟩

theorem bodyRecord_fields :
    bodyRecord.Field "filter" (·.filter) (decodeOption (decodeNode nestingRoom)) ∧
    bodyRecord.Field "timeFilter" (·.range) (decodeOption decodeRange) := by
  refine ⟨?_, ?_⟩ <;>
    (intro slot hslot
     simp only [bodyRecord, List.mem_cons, List.not_mem_nil, or_false] at hslot
     obtain rfl | rfl := hslot <;>
       first
       | exact .inl ⟨rfl, Slot.sets_id fun _ _ => rfl⟩
       | exact .inr ⟨by decide, Slot.keeps_map fun _ _ => rfl⟩)

theorem decodeBody_ok_iff {room : Nat} {t : Tree} {w : Wire} :
    bodyRecord.decode {} room t = .ok w ↔
      ∃ room' v fields, room = room' + 1 ∧ t = tree v ∧ Laid bodyRecord fields v ∧
        ReadsOr (decodeOption (decodeNode nestingRoom)) none room' fields "filter" w.filter ∧
        ReadsOr (decodeOption decodeRange) none room' fields "timeFilter" w.range := by
  obtain ⟨hfilter, hrange⟩ := bodyRecord_fields
  rw [Record.decode_ok_iff bodyRecord_strict bodyRecord_onValues]
  constructor
  · rintro ⟨room, v, slots, rfl, rfl, hlaid, hfill⟩
    have hnodup := hlaid.nodup bodyRecord_strict
    exact ⟨room, v, _, rfl, rfl, ⟨slots, hlaid, rfl⟩, hfilter.of_fill hnodup hlaid.mem hfill,
      hrange.of_fill hnodup hlaid.mem hfill⟩
  · rintro ⟨room, v, fields, rfl, rfl, ⟨slots, hlaid, rfl⟩, hf, hr⟩
    have hnodup := hlaid.nodup bodyRecord_strict
    have hmem := hlaid.mem
    obtain ⟨d, hfill⟩ : ∃ d, Record.fill room slots {} = .ok d := by
      refine Record.exists_fill (fun f hin => ?_) _
      have hkey := List.mem_map_of_mem (f := Slot.key) (hmem f hin)
      simp only [bodyRecord, List.map_cons, List.map_nil, List.mem_cons, List.not_mem_nil,
        or_false] at hkey
      obtain hkey | hkey := hkey
      · exact hfilter.fills hnodup hmem hin hkey fun w hw => ⟨_, hf.fills w hw⟩
      · exact hrange.fills hnodup hmem hin hkey fun w hw => ⟨_, hr.fills w hw⟩
    have hfilter := Except.ok.inj ((hfilter.of_fill hnodup hmem hfill).symm.trans hf)
    have hrange := Except.ok.inj ((hrange.of_fill hnodup hmem hfill).symm.trans hr)
    obtain rfl : d = w := by
      cases d
      cases w
      simp only [Wire.mk.injEq]
      exact ⟨hfilter, hrange⟩
    exact ⟨room, v, slots, rfl, rfl, hlaid, hfill⟩

/-- The parts of a request, as far as its text is that of one. -/
theorem decodeWire_ok_iff {text : String} {w : Wire} :
    decodeWire text = .ok w ↔
      ∃ room v fields, nestingRoom = room + 1 ∧ v.Written text.toList ∧
        Laid bodyRecord fields v ∧
        ReadsOr (decodeOption (decodeNode nestingRoom)) none room fields "filter" w.filter ∧
        ReadsOr (decodeOption decodeRange) none room fields "timeFilter" w.range := by
  have hvalues : OnValues (bodyRecord.decode {}) := by
    intro room t w h
    obtain ⟨_, v, _, _, rfl, -⟩ := decodeBody_ok_iff.1 h
    exact ⟨v, rfl⟩
  rw [decodeWire, decodeWhole_ok_iff hvalues]
  constructor
  · rintro ⟨v, hwritten, hw⟩
    obtain ⟨room, v', fields, hroom, hv, hlaid, hf, hr⟩ := decodeBody_ok_iff.1 hw
    obtain rfl := tree_injective hv
    exact ⟨room, v, fields, hroom, hwritten, hlaid, hf, hr⟩
  · rintro ⟨room, v, fields, hroom, hwritten, hlaid, hf, hr⟩
    exact ⟨v, hwritten, decodeBody_ok_iff.2 ⟨room, v, fields, hroom, rfl, hlaid, hf, hr⟩⟩

end RequestLog.RequestBody
