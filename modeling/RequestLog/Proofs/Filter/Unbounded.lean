import RequestLog.Proofs.Filter.Document
import RequestLog.Proofs.Filter.Shape

/-!
# Requests of any depth

A filter can be written down however deep it is, and with operands that nothing can be made
of (`IsNode`, `IsBody`). The reader of texts does not come to the end of all of these. But
where it does, it finds the range that was written and a filter of the same depth, and this is
the filter itself unless there is an operand that cannot be read anyway: an object loses its
repeated keys, and no operand is an object (`decodeWire_isBody`).
-/

namespace RequestLog.RequestBody

open Json

/-! ## Shapes -/

/-- Under a key there is the name of a value. -/
def Names {α : Type} (value : String → Option α) (fields : List (String × Json))
    (key : String) (a : α) : Prop :=
  ∃ name v, value name = some a ∧ get? key fields = some v ∧ NameShape true name v

/-- A tree, written with whatever operands. -/
inductive IsNode : FilterOf Json → Json → Prop
  | all {v : Json} : NameShape true "all" v → IsNode .all v
  | leaf {l : LeafOf Json} {fields : List (String × Json)} {v : Json} :
      RecordShape true ["table", "column", "operator", "value"] 3 fields v →
      Names Table.ofName? fields "table" l.table →
      Names Column.ofName? fields "column" l.column →
      Names Operator.ofName? fields "operator" l.operator →
      (get? "value" fields).getD .null = l.value →
      IsNode (.leaf l) (.object [("leaf", v)])
  | branch {left right : FilterOf Json} {op : Connective} {fields : List (String × Json)}
      {v leftValue rightValue : Json} :
      RecordShape true ["left", "right", "operator"] 3 fields v →
      get? "left" fields = some leftValue → IsNode left leftValue →
      get? "right" fields = some rightValue → IsNode right rightValue →
      Names Connective.ofName? fields "operator" op →
      IsNode (.branch left right op) (.object [("branch", v)])

inductive IsMoment : Moment → Json → Prop
  | text (s : String) : IsMoment (.text s) (.text s)
  | millis {n : Json.Number} {ms : Int} : n.int64? = some ms →
      IsMoment (.millis ms) (.number n)

inductive IsRange : Moment × Moment → Json → Prop
  | mk {start stop : Moment} {ends : List (String × Json)} {v startValue stopValue : Json} :
      RecordShape true ["start", "end"] 2 ends v →
      get? "start" ends = some startValue → IsMoment start startValue →
      get? "end" ends = some stopValue → IsMoment stop stopValue →
      IsRange (start, stop) v

/-- A part of a request, for which null is as good as nothing. -/
inductive IsPart {α : Type} (is : α → Json → Prop) (fields : List (String × Json))
    (key : String) : Option α → Prop
  | omitted : get? key fields = none → IsPart is fields key none
  | null : get? key fields = some .null → IsPart is fields key none
  | given {a : α} {v : Json} : get? key fields = some v → is a v →
      IsPart is fields key (some a)

/-- A request as it is written, with whatever range and filter. -/
inductive IsBody (w : Wire) : Json → Prop
  | mk {fields : List (String × Json)} {v : Json} :
      RecordShape true ["filter", "timeFilter"] 0 fields v →
      IsPart IsNode fields "filter" w.filter → IsPart IsRange fields "timeFilter" w.range →
      IsBody w v

theorem IsNode.not_null {f : FilterOf Json} : ¬ IsNode f .null := by
  intro h
  cases h with
  | all hname => cases hname

theorem IsRange.not_null {ends : Moment × Moment} : ¬ IsRange ends .null := by
  intro h
  cases h with
  | mk hrecord => cases hrecord

/-! ## Written and read -/

theorem fields_eq_of_keys {fields fields' : List (String × Json)} {keys : List String}
    (hkeys : fields.map (·.1) = keys.take fields.length)
    (hkeys' : fields'.map (·.1) = keys.take fields'.length)
    (hvalues : fields.map (·.2) = fields'.map (·.2)) : fields = fields' := by
  have hlength : fields.length = fields'.length := by
    rw [← List.length_map (f := (·.2)), hvalues, List.length_map]
  rw [← hlength, ← hkeys] at hkeys'
  exact (List.zip_of_prod hkeys'.symm hvalues).trans (List.zip_of_prod rfl rfl).symm

/-- A record has its fields from one reading only. -/
theorem RecordShape.fields_eq {keys : List String} {required required' : Nat}
    {fields fields' : List (String × Json)} {v : Json}
    (h : RecordShape true keys required fields v)
    (h' : RecordShape true keys required' fields' v) : fields = fields' := by
  cases h with
  | object => cases h'; rfl
  | array _ hkeys _ =>
      generalize hv : fields.map (·.2) = values at h'
      cases h' with
      | array _ hkeys' _ => exact fields_eq_of_keys hkeys hkeys' hv

theorem NameShape.eq {name name' : String} {v : Json} (h : NameShape true name v)
    (h' : NameShape true name' v) : name = name' := by
  cases h <;> cases h' <;> rfl

/-- A name is read as what it is the name of. -/
theorem Reads.eq_of_names {α : Type} {names : List String} {value : String → Option α}
    {room : Nat} {fields : List (String × Json)} {key : String} {a b : α}
    (h : Reads (Choice.constants names value).decode room fields key a)
    (hb : Names value fields key b) : a = b := by
  obtain ⟨v, hget, hread⟩ := h
  obtain ⟨name', v', hvalue', hget', hshape⟩ := hb
  obtain rfl := Option.some.inj (hget.symm.trans hget')
  obtain ⟨name, hvalue, hv⟩ := Choice.decode_constants_iff.1 hread
  have hname : NameShape true name v := by
    obtain rfl | ⟨-, rfl⟩ := hv
    · exact .text
    · exact .key rfl
  rw [hname.eq hshape] at hvalue
  exact Option.some.inj (hvalue.symm.trans hvalue')

/-- An operand of a leaf that can be read. -/
def Converts (l : LeafOf Json) : Prop :=
  ∃ x, Filter.operand (fieldName l.table l.column) l.column.kind l.value = .ok x

theorem decodeJson_of_operand {field : String} {kind : Kind} {v j : Json} {x : Scalar}
    (h : Filter.operand field kind v = .ok x) {room : Nat}
    (hread : decodeJson room v.tree = .ok j) : j = v := by
  cases room with
  | succ room => exact Except.ok.inj (hread.symm.trans (decodeJson_operand h (Nat.succ_pos room)))
  | zero =>
      unfold Filter.operand at h
      split at h
      · cases hread
      · exact Except.ok.inj (hread.symm.trans (toJson_of_single h 0))

section

variable {inner : Decoder (FilterOf Json)} {room : Nat} {v : Json} {g : FilterOf Json}

theorem nodeChoice_all (hv : NameShape true "all" v)
    (h : (nodeChoice inner).decode room v.tree = .ok g) : g = .all := by
  obtain ⟨rfl, -⟩ | ⟨_, w, -, ⟨_, hw, -⟩ | ⟨hw, -⟩⟩ := nodeChoice_ok_iff.1 h
  · rfl
  · cases hv <;> simp at hw
  · cases hv <;> simp at hw

theorem nodeChoice_leaf
    (h : (nodeChoice inner).decode room (Json.object [("leaf", v)]).tree = .ok g) :
    ∃ room' l, g = .leaf l ∧ decodeLeaf room' v.tree = .ok l := by
  obtain ⟨-, hv | ⟨-, hv⟩⟩ | ⟨room', w, -, ⟨l, hv, hg, hleaf⟩ | ⟨hv, -⟩⟩ :=
    nodeChoice_ok_iff.1 h
  all_goals simp at hv
  rw [← hv] at hleaf
  exact ⟨room', l, hg, hleaf⟩

theorem nodeChoice_branch
    (h : (nodeChoice inner).decode room (Json.object [("branch", v)]).tree = .ok g) :
    ∃ room', decodeBranch inner room' v.tree = .ok g := by
  obtain ⟨-, hv | ⟨-, hv⟩⟩ | ⟨room', w, -, ⟨l, hv, -⟩ | ⟨hv, hbranch⟩⟩ :=
    nodeChoice_ok_iff.1 h
  all_goals simp at hv
  rw [← hv] at hbranch
  exact ⟨room', hbranch⟩

end

/-- What is read of a tree is as deep as the tree, and it is the tree itself if all its
operands can be read. -/
theorem decodeNode_isNode {f : FilterOf Json} {v : Json} (h : IsNode f v)
    {levels room : Nat} {g : FilterOf Json} (hread : decodeNode levels room v.tree = .ok g) :
    g.depth = f.depth ∧ ((∀ l ∈ f.leaves, Converts l) → g = f) := by
  induction h generalizing levels room g with
  | all hname =>
      obtain ⟨inner, -, heq⟩ := decodeNode_eq levels
      rw [heq] at hread
      rw [nodeChoice_all hname hread]
      exact ⟨rfl, fun _ => rfl⟩
  | @leaf l fields v hrecord htable hcolumn hoperator hvalue =>
      obtain ⟨inner, -, heq⟩ := decodeNode_eq levels
      rw [heq] at hread
      obtain ⟨_, l', rfl, hleaf⟩ := nodeChoice_leaf hread
      obtain ⟨room, v', fields', -, htree, hlaid, ht, hc, ho, hv⟩ := decodeLeaf_ok_iff.1 hleaf
      obtain rfl := tree_injective htree
      obtain rfl := hrecord.fields_eq hlaid.shape
      refine ⟨rfl, fun hconverts => ?_⟩
      obtain ⟨x, hx⟩ := hconverts l (List.mem_singleton_self l)
      have hj : l'.value = l.value := by
        rw [← hvalue] at hx ⊢
        unfold ReadsOr at hv
        cases hget : get? "value" fields with
        | none => rw [hget] at hv; exact (Except.ok.inj hv).symm
        | some w =>
            rw [hget] at hv hx
            exact decodeJson_of_operand hx hv
      obtain ⟨table, column, operator, value⟩ := l
      obtain ⟨table', column', operator', value'⟩ := l'
      rw [FilterOf.leaf.injEq, LeafOf.mk.injEq]
      exact ⟨ht.eq_of_names htable, hc.eq_of_names hcolumn, ho.eq_of_names hoperator, hj⟩
  | @branch left right op fields v _ _ hrecord hgetLeft _ hgetRight _ hoperator ihleft
      ihright =>
      cases levels with
      | zero =>
          obtain ⟨_, hbranch⟩ := nodeChoice_branch hread
          obtain ⟨_, _, _, _, _, _, -, -, -, -, ⟨_, -, hnone⟩, -⟩ :=
            (decodeBranch_ok_iff fun _ _ _ h => by cases h).1 hbranch
          cases hnone
      | succ levels =>
          obtain ⟨_, hbranch⟩ := nodeChoice_branch hread
          obtain ⟨room, v', fields', l, r, op', -, htree, rfl, hlaid, ⟨lv, hl, hlread⟩,
            ⟨rv, hr, hrread⟩, ho⟩ := (decodeBranch_ok_iff (onValues_node levels)).1 hbranch
          obtain rfl := tree_injective htree
          obtain rfl := hrecord.fields_eq hlaid.shape
          obtain rfl := Option.some.inj (hl.symm.trans hgetLeft)
          obtain rfl := Option.some.inj (hr.symm.trans hgetRight)
          obtain ⟨hldepth, hleq⟩ := ihleft hlread
          obtain ⟨hrdepth, hreq⟩ := ihright hrread
          refine ⟨by rw [FilterOf.depth, FilterOf.depth, hldepth, hrdepth], fun hconverts => ?_⟩
          obtain ⟨hleft, hright⟩ := List.forall_mem_append.1 hconverts
          rw [hleq hleft, hreq hright, ho.eq_of_names hoperator]

/-! ## Written requests -/

theorem decodeMoment_isMoment {m m' : Moment} {v : Json} (h : IsMoment m v) {room : Nat}
    (hread : decodeMoment room v.tree = .ok m') : m' = m := by
  cases h with
  | text s =>
      obtain ⟨_, hs, rfl⟩ | ⟨_, _, hn, -⟩ := decodeMoment_ok_iff.1 hread
      · cases hs; rfl
      · cases hn
  | millis hms =>
      obtain ⟨_, hs, -⟩ | ⟨_, _, hn, hms', rfl⟩ := decodeMoment_ok_iff.1 hread
      · cases hs
      · cases hn
        rw [Option.some.inj (hms'.symm.trans hms)]

theorem decodeRange_isRange {ends ends' : Moment × Moment} {v : Json} (h : IsRange ends v)
    {room : Nat} (hread : decodeRange room v.tree = .ok ends') : ends' = ends := by
  obtain ⟨hrecord, hstart, hstartIs, hstop, hstopIs⟩ := h
  obtain ⟨room, v', fields, -, htree, hlaid, ⟨start, hget, hs⟩, ⟨stop, hget', he⟩⟩ :=
    decodeRange_ok_iff.1 hread
  obtain rfl := tree_injective htree
  obtain rfl := hrecord.fields_eq hlaid.shape
  obtain rfl := Option.some.inj (hget.symm.trans hstart)
  obtain rfl := Option.some.inj (hget'.symm.trans hstop)
  exact Prod.ext (decodeMoment_isMoment hstartIs hs) (decodeMoment_isMoment hstopIs he)

/-- What is read of a part that was given is what the decoder of the part reads. -/
theorem ReadsOr.of_given {α : Type} {is : α → Json → Prop} {read : Decoder α} {room : Nat}
    {fields : List (String × Json)} {key : String} {a : α} {o : Option α}
    (h : ReadsOr (decodeOption read) none room fields key o)
    (hpart : IsPart is fields key (some a)) (hnull : ¬ is a .null) :
    ∃ v b, is a v ∧ o = some b ∧ read room v.tree = .ok b := by
  cases hpart with
  | @given _ v hget hv =>
      have hread := h.fills v hget
      rw [decodeOption_value fun h => hnull (h ▸ hv)] at hread
      obtain ⟨b, hb, rfl⟩ := ok_of_map hread
      exact ⟨v, b, hv, rfl, hb⟩

/-- Of a written request the same range is read, and a filter of the same depth. -/
theorem decodeWire_isBody {text : String} {v : Json} {w w' : Wire} {f : FilterOf Json}
    (htext : v.Written text.toList) (h : IsBody w v) (hfilter : w.filter = some f)
    (hread : decodeWire text = .ok w') :
    (∀ ends, w.range = some ends → w'.range = some ends) ∧
      ∃ g, w'.filter = some g ∧ g.depth = f.depth ∧
        ((∀ l ∈ f.leaves, Converts l) → g = f) := by
  obtain ⟨hrecord, hnode, hrange⟩ := h
  obtain ⟨room, v', fields, -, htext', hlaid, hf, hr⟩ := decodeWire_ok_iff.1 hread
  have hbuild := (build_tokens_iff.2 htext').symm.trans (build_tokens_iff.2 htext)
  obtain rfl := tree_injective (congrArg Prod.fst hbuild)
  obtain rfl := hrecord.fields_eq hlaid.shape
  refine ⟨fun ends hends => ?_, ?_⟩
  · rw [hends] at hrange
    obtain ⟨v, ends', hv, hw, hread⟩ := hr.of_given hrange IsRange.not_null
    rw [hw, decodeRange_isRange hv hread]
  · rw [hfilter] at hnode
    obtain ⟨v, g, hv, hw, hread⟩ := hf.of_given hnode IsNode.not_null
    exact ⟨g, hw, decodeNode_isNode hv hread⟩

end RequestLog.RequestBody
