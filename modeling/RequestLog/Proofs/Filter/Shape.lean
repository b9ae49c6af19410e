import RequestLog.Proofs.Filter.Wire

/-!
# The shapes a request may have

The wire format knows one way to write each part of a request: a record is an object with the
keys of its fields, a name is a string. The reader takes two more. A record may also be an
array of its fields in their order, and a name may also be the only key of an object that
holds null. With `free` the shapes below allow these two; what is read is of such a shape
(`parse_shape`), and nothing further apart from the documented one than that.
-/

namespace RequestLog.RequestBody

open Json

/-- A record with the given fields: an object whose keys are all known and occur once. If
`free`, also an array, of the values of the first fields and at least of those `required`. -/
inductive RecordShape (free : Bool) (keys : List String) (required : Nat)
    (fields : List (String × Json)) : Json → Prop where
  | object : (fields.map (·.1)).Nodup → (∀ f ∈ fields, f.1 ∈ keys) →
      RecordShape free keys required fields (.object fields)
  | array : free = true → fields.map (·.1) = keys.take fields.length →
      required ≤ fields.length → RecordShape free keys required fields (.array (fields.map (·.2)))

theorem RecordShape.eq_object {keys : List String} {required : Nat}
    {fields : List (String × Json)} {v : Json} (h : RecordShape false keys required fields v) :
    v = .object fields := by
  cases h with
  | object => rfl
  | array hfree => cases hfree

/-- A name, as a string. If `free`, also as the key of null. -/
inductive NameShape (free : Bool) (name : String) : Json → Prop where
  | text : NameShape free name (.text name)
  | key : free = true → NameShape free name (.object [(name, .null)])

/-- Under a key there is one of the names of a type. -/
def HasName {α : Type} (free : Bool) (value : String → Option α) (fields : List (String × Json))
    (key : String) : Prop :=
  ∃ name a v, value name = some a ∧ get? key fields = some v ∧ NameShape free name v

/-- A node of a filter. -/
inductive NodeShape (free : Bool) : Json → Prop where
  | all {v : Json} : NameShape free "all" v → NodeShape free v
  | leaf {fields : List (String × Json)} {v : Json} :
      RecordShape free ["table", "column", "operator", "value"] 3 fields v →
      HasName free Table.ofName? fields "table" →
      HasName free Column.ofName? fields "column" →
      HasName free Operator.ofName? fields "operator" →
      NodeShape free (.object [("leaf", v)])
  | branch {fields : List (String × Json)} {v left right : Json} :
      RecordShape free ["left", "right", "operator"] 3 fields v →
      get? "left" fields = some left → NodeShape free left →
      get? "right" fields = some right → NodeShape free right →
      HasName free Connective.ofName? fields "operator" →
      NodeShape free (.object [("branch", v)])

/-- A request: a time range with both its ends and, unless it is absent or null, a filter. -/
inductive BodyShape (free : Bool) : Json → Prop where
  | mk {fields ends : List (String × Json)} {v range start stop : Json} :
      RecordShape free ["filter", "timeFilter"] 0 fields v →
      (∀ w, get? "filter" fields = some w → w = .null ∨ NodeShape free w) →
      get? "timeFilter" fields = some range →
      RecordShape free ["start", "end"] 2 ends range →
      get? "start" ends = some start → get? "end" ends = some stop →
      BodyShape free v

/-! ## What is read has a shape -/

theorem Laid.shape {δ : Type} {r : Record δ} {fields : List (String × Json)} {v : Json}
    (h : Laid r fields v) :
    RecordShape true (r.slots.map (·.key)) r.required fields v := by
  obtain ⟨slots, hlaid, rfl⟩ := h
  have hkeys := Record.named_keys slots
  cases hlaid with
  | named hnodup hmem =>
      refine .object (hkeys ▸ hnodup) fun f hf => ?_
      obtain ⟨s, hs, rfl⟩ := List.mem_map.1 hf
      exact List.mem_map_of_mem (hmem s hs)
  | placed htake hrequired =>
      have hvalues : slots.map (·.2) = (Record.named slots).map (·.2) := by
        rw [Record.named, List.map_map]
        rfl
      have hlength : (Record.named slots).length = slots.length := List.length_map ..
      rw [hvalues]
      refine .array rfl ?_ (hlength ▸ hrequired)
      rw [hkeys, hlength, ← List.map_take, ← htake, List.map_map]
      rfl

theorem Reads.hasName {α : Type} {names : List String} {value : String → Option α} {room : Nat}
    {fields : List (String × Json)} {key : String} {a : α}
    (h : Reads (Choice.constants names value).decode room fields key a) :
    HasName true value fields key := by
  obtain ⟨v, hget, hread⟩ := h
  obtain ⟨name, hname, rfl | ⟨-, rfl⟩⟩ := Choice.decode_constants_iff.1 hread
  · exact ⟨name, a, _, hname, hget, .text⟩
  · exact ⟨name, a, _, hname, hget, .key rfl⟩

theorem nodeShape_of_nodeChoice {inner : Decoder (FilterOf Json)} (hinner : OnValues inner)
    (hshape : ∀ room v f, inner room (tree v) = .ok f → NodeShape true v) {room : Nat} {v : Json}
    {f : FilterOf Json} (h : (nodeChoice inner).decode room v.tree = .ok f) :
    NodeShape true v := by
  obtain ⟨-, rfl | ⟨-, rfl⟩⟩ | ⟨room, w, -, ⟨l, rfl, -, hleaf⟩ | ⟨rfl, hbranch⟩⟩ :=
    nodeChoice_ok_iff.1 h
  · exact .all .text
  · exact .all (.key rfl)
  · obtain ⟨_, w', fields, -, htree, hlaid, htable, hcolumn, hoperator, -⟩ :=
      decodeLeaf_ok_iff.1 hleaf
    obtain rfl := tree_injective htree
    exact .leaf hlaid.shape htable.hasName hcolumn.hasName hoperator.hasName
  · obtain ⟨_, w', fields, _, _, _, -, htree, -, hlaid, hleft, hright, hoperator⟩ :=
      (decodeBranch_ok_iff hinner).1 hbranch
    obtain rfl := tree_injective htree
    obtain ⟨left, hgetleft, hleft⟩ := hleft
    obtain ⟨right, hgetright, hright⟩ := hright
    exact .branch hlaid.shape hgetleft (hshape _ _ _ hleft) hgetright (hshape _ _ _ hright)
      hoperator.hasName

theorem nodeShape_of_decode (levels : Nat) {room : Nat} {v : Json} {f : FilterOf Json}
    (h : decodeNode levels room v.tree = .ok f) : NodeShape true v := by
  induction levels generalizing room v f with
  | zero => 
      exact nodeShape_of_nodeChoice (fun _ _ _ h => by cases h) (fun _ _ _ h => by cases h) h
  | succ levels ih => exact nodeShape_of_nodeChoice (onValues_node levels) (fun _ _ _ => ih) h

theorem ReadsOr.nodeShape {levels room : Nat} {fields : List (String × Json)} {key : String}
    {f : Option (FilterOf Json)}
    (h : ReadsOr (decodeOption (decodeNode levels)) none room fields key f) {w : Json}
    (hw : get? key fields = some w) : w = .null ∨ NodeShape true w := by
  have hread := h.fills w hw
  by_cases hnull : w = .null
  · exact .inl hnull
  · rw [decodeOption_value hnull] at hread
    obtain ⟨f, hf, -⟩ := ok_of_map hread
    exact .inr (nodeShape_of_decode levels hf)

/-- A time range that was read is one of its two ends. -/
theorem ReadsOr.ends {room : Nat} {fields : List (String × Json)} {key : String}
    {ends : Moment × Moment}
    (h : ReadsOr (decodeOption decodeRange) none room fields key (some ends)) :
    ∃ range inside start stop, get? key fields = some range ∧
      RecordShape true ["start", "end"] 2 inside range ∧
      get? "start" inside = some start ∧ get? "end" inside = some stop := by
  unfold ReadsOr at h
  split at h
  · next w hw =>
      have hnull : w ≠ .null := by
        rintro rfl
        cases h
      rw [decodeOption_value hnull] at h
      obtain ⟨_, hrange, -⟩ := ok_of_map h
      obtain ⟨_, v, inside, -, htree, hlaid, ⟨start, hstart, -⟩, ⟨stop, hstop, -⟩⟩ :=
        decodeRange_ok_iff.1 hrange
      obtain rfl := tree_injective htree
      exact ⟨w, inside, start, stop, hw, hlaid.shape, hstart, hstop⟩
  · cases h

/-- A text is of a request in one of the shapes that are read, or it is refused: for its shape,
or because there is no time range in it. -/
theorem parse_shape (text : String) :
    (∃ v : Json, v.Written text.toList ∧ BodyShape true v) ∨
      (∃ message, parse text = .error (.invalidShape message)) ∨
      parse text = .error .missingTimeFilter := by
  unfold parse
  by_cases hlong : maxBytes < text.utf8ByteSize
  · exact .inr (.inl ⟨_, if_pos hlong⟩)
  · rw [if_neg hlong]
    cases hwire : decodeWire text with
    | error fault => exact .inr (.inl ⟨_, rfl⟩)
    | ok w =>
        obtain ⟨room, v, fields, -, hwritten, hlaid, hfilter, hrange⟩ := decodeWire_ok_iff.1 hwire
        cases hends : w.range with
        | none =>
            refine .inr (.inr ?_)
            simp only [ofWire, hends]
            rfl
        | some ends =>
            rw [hends] at hrange
            obtain ⟨range, inside, start, stop, hget, hrecord, hstart, hstop⟩ := hrange.ends
            exact .inl ⟨v, hwritten, .mk hlaid.shape (fun _ => hfilter.nodeShape) hget hrecord
              hstart hstop⟩

/-! ## A request without a key -/

/-- A request about the first millisecond of 1970, its fields and their ends given in order. -/
def arrayText : String := "[null,[0,1]]"

theorem tokens_arrayText : tokens arrayText.toList =
    [.punct .openArray, .null, .punct .comma, .punct .openArray,
      .number (.ok (.int 0)), .punct .comma, .number (.ok (.int 1)),
      .punct .closeArray, .punct .closeArray] := by
  iterate 9 refine tokensAfter_cons rfl rfl ?_
  exact tokensAfter_nil

theorem arrayText_accepted :
    (∃ body, parse arrayText = .ok body) ∧
      ∀ v : Json, v.Written arrayText.toList → ¬ BodyShape false v := by
  constructor
  · have hwire : decodeWire arrayText = .ok ⟨none, some (.millis 0, .millis 1)⟩ := by
      rw [decodeWire, decodeWhole, tokens_arrayText]
      rfl
    rw [parse, hwire]
    exact ⟨_, rfl⟩
  · intro v hwritten hshape
    have hbuild := build_tokens_iff.2 hwritten
    rw [tokens_arrayText] at hbuild
    obtain rfl : v = .array [.null, .array [.number (.int 0), .number (.int 1)]] :=
      tree_injective (congrArg Prod.fst hbuild).symm
    obtain ⟨hrecord, -⟩ := hshape
    cases hrecord.eq_object

end RequestLog.RequestBody
