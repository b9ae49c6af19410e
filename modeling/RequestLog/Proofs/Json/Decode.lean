import RequestLog.Json.Decode
import RequestLog.Proofs.Except
import RequestLog.Proofs.Json.Tree

/-!
# What decoders read

A decoder that ends well has read a value, not a text that breaks off, and from then on it
is enough to speak of values (`OnValues`). What it has read is said once for each way to
build a decoder: a choice was written as its name or as the only key of an object, a record
as an object or as an array (`Laid`), and every field holds what the decoder of its slot
made of the value under its key (`Record.Field.of_fill`).
-/

namespace RequestLog.Json

/-- A decoder that ends well only on the trees of values. -/
def OnValues {α : Type} (read : Decoder α) : Prop :=
  ∀ room t a, read room t = .ok a → ∃ v : Json, t = v.tree

/-! ## Single values -/

section

variable {α β : Type} {read : Decoder α}

theorem not_ok_mismatch {expected : String} {t : Tree} {a : α} :
    (t.mismatch expected : Except Fault α) ≠ .ok a := by
  intro h
  obtain ⟨f, -, hf⟩ := ok_of_bind h
  cases hf

theorem OnValues.map {f : α → β} (h : OnValues read) :
    OnValues fun room t => (read room t).map f := by
  intro room t b hb
  obtain ⟨a, ha, -⟩ := ok_of_map hb
  exact h room t a ha

theorem onValues_unit {a : α} : OnValues (decodeUnit a) := by
  intro room t b h
  unfold decodeUnit at h
  split at h
  · exact ⟨.null, rfl⟩
  · exact absurd h not_ok_mismatch

theorem decodeUnit_ok_iff {a b : α} {room : Nat} {v : Json} :
    decodeUnit a room v.tree = .ok b ↔ v = .null ∧ b = a := by
  unfold decodeUnit
  cases v with
  | null => exact ⟨fun h => ⟨rfl, (Except.ok.inj h).symm⟩, fun h => by rw [h.2]; rfl⟩
  | _ => exact ⟨fun h => absurd h not_ok_mismatch, fun h => nomatch h.1⟩

theorem onValues_option (h : OnValues read) : OnValues (decodeOption read) := by
  intro room t a ha
  unfold decodeOption at ha
  split at ha
  · exact ⟨.null, rfl⟩
  · cases ha
  · exact h.map room _ a ha

theorem decodeOption_value {room : Nat} {v : Json} (hv : v ≠ .null) :
    decodeOption read room v.tree = (read room v.tree).map some := by
  unfold decodeOption
  cases v with
  | null => exact absurd rfl hv
  | _ => rfl

theorem decodeText_ok_iff {expected : String} {room : Nat} {t : Tree} {s : String} :
    decodeText expected room t = .ok s ↔ t = tree (.text s) := by
  unfold decodeText
  split
  · next o =>
      rw [tree]
      exact ⟨congrArg Tree.text, Tree.text.inj⟩
  · next hnot => exact ⟨fun h => absurd h not_ok_mismatch, fun h => absurd h (hnot _)⟩

theorem decodeFloat_ok_iff {room : Nat} {t : Tree} {x : Float} :
    decodeFloat room t = .ok x ↔ ∃ n : Number, t = tree (.number n) ∧ x = n.toFloat := by
  unfold decodeFloat
  split
  · next o =>
      constructor
      · intro h
        obtain ⟨n, rfl, rfl⟩ := ok_of_map h
        exact ⟨n, rfl, rfl⟩
      · rintro ⟨n, ht, rfl⟩
        obtain rfl := Tree.number.inj ht
        rfl
  · next hnot =>
      refine ⟨fun h => absurd h not_ok_mismatch, ?_⟩
      rintro ⟨n, rfl, -⟩
      exact absurd rfl (hnot _)

theorem decodeUnsigned_ok_iff {bits room : Nat} {t : Tree} {k : Nat} :
    decodeUnsigned bits room t = .ok k ↔ t = tree (.number (.int k)) ∧ k < Decimal.twos bits := by
  unfold decodeUnsigned
  split
  · next o =>
      constructor
      · intro h
        obtain ⟨n, rfl, hn⟩ := ok_of_bind h
        obtain ⟨i, hi, rfl⟩ := ok_of_map hn
        cases n with
        | float x => cases hi
        | int j =>
            rw [Number.toRange] at hi
            split at hi
            · next hrange =>
                cases hi
                simp only [fitsUnsigned, Bool.and_eq_true, decide_eq_true_eq] at hrange
                obtain ⟨k, rfl⟩ := Int.eq_ofNat_of_zero_le hrange.1
                exact ⟨rfl, Int.ofNat_lt.1 hrange.2⟩
            · cases hi
      · rintro ⟨ht, hk⟩
        obtain rfl := Tree.number.inj ht
        have hrange : fitsUnsigned bits k = true := by
          simp only [fitsUnsigned, Bool.and_eq_true, decide_eq_true_eq]
          exact ⟨Int.natCast_nonneg k, Int.ofNat_lt.2 hk⟩
        change ((Number.int k).toRange _ _).map Int.toNat = _
        rw [Number.toRange, if_pos hrange]
        rfl
  · next hnot =>
      refine ⟨fun h => absurd h not_ok_mismatch, ?_⟩
      rintro ⟨rfl, -⟩
      exact absurd rfl (hnot _)

mutual

theorem value_of_toJson : ∀ (t : Tree) (room : Nat) (j : Json), toJson room t = .ok j →
    ∃ v : Json, t = v.tree
  | .null, _, _, _ => ⟨.null, rfl⟩
  | .bool b, _, _, _ => ⟨.bool b, rfl⟩
  | .number n, room, j, h => by
      rw [toJson] at h
      obtain ⟨n, rfl, -⟩ := ok_of_map h
      exact ⟨.number n, rfl⟩
  | .text s, room, j, h => by
      rw [toJson] at h
      obtain ⟨s, rfl, -⟩ := ok_of_map h
      exact ⟨.text s, rfl⟩
  | .array items, 0, _, h => by cases h
  | .object members, 0, _, h => by cases h
  | .array items, room + 1, j, h => by
      rw [toJson] at h
      obtain ⟨vs, hvs, -⟩ := ok_of_map h
      obtain ⟨vs, rfl⟩ := values_of_itemsToJson items room [] vs hvs
      exact ⟨.array vs, rfl⟩
  | .object members, room + 1, j, h => by
      rw [toJson] at h
      obtain ⟨ms, hms, -⟩ := ok_of_map h
      obtain ⟨ms, rfl⟩ := values_of_membersToJson members room [] ms hms
      exact ⟨.object ms, rfl⟩
  | .broken .., _, _, h => by cases h

theorem values_of_itemsToJson : ∀ (items : Items) (room : Nat) (done js : List Json),
    itemsToJson room done items = .ok js → ∃ vs : List Json, items = itemsOf vs
  | .closed, _, _, _, _ => ⟨[], rfl⟩
  | .stopped _, _, _, _, h => by cases h
  | .cons t rest, room, done, js, h => by
      rw [itemsToJson] at h
      split at h
      · next j hj =>
          obtain ⟨v, rfl⟩ := value_of_toJson t room j hj
          obtain ⟨vs, rfl⟩ := values_of_itemsToJson rest room _ js h
          exact ⟨v :: vs, rfl⟩
      · cases h

theorem values_of_membersToJson : ∀ (members : Members) (room : Nat)
    (done js : List (String × Json)), membersToJson room done members = .ok js →
    ∃ ms : List (String × Json), members = membersOf ms
  | .closed, _, _, _, _ => ⟨[], rfl⟩
  | .stopped .., _, _, _, h => by cases h
  | .cons (.error _) _ _, _, _, _, h => by cases h
  | .cons (.ok key) t rest, room, done, js, h => by
      simp only [membersToJson] at h
      split at h
      · next j hj =>
          obtain ⟨v, rfl⟩ := value_of_toJson t room j hj
          obtain ⟨ms, rfl⟩ := values_of_membersToJson rest room _ js h
          exact ⟨(key, v) :: ms, rfl⟩
      · cases h

end

theorem onValues_json : OnValues decodeJson := fun room t j h => value_of_toJson t room j h

end

theorem itemsToJson_values {room : Nat} {vs done : List Json}
    (h : ∀ v ∈ vs, toJson room v.tree = .ok v) :
    itemsToJson room done (itemsOf vs) = .ok (done.reverse ++ vs) := by
  induction vs generalizing done with
  | nil => rw [itemsOf, itemsToJson, List.append_nil]
  | cons v rest ih =>
      rw [List.forall_mem_cons] at h
      rw [itemsOf, itemsToJson, h.1]
      simp only [ih h.2, List.reverse_cons, List.append_assoc, List.singleton_append]

/-! ## Sequences -/

section

variable {α : Type} {read : Decoder α}

theorem decodeItems_ok_iff {room : Nat} (h : OnValues read) {done as : List α} {items : Items} :
    decodeItems (read room) done items = .ok as ↔
      ∃ vs bs, items = itemsOf vs ∧ as = done.reverse ++ bs ∧
        List.Forall₂ (fun v a => read room (tree v) = .ok a) vs bs := by
  constructor
  · intro hread
    induction done, items using decodeItems.induct (read room) with
    | case1 done =>
        cases hread
        exact ⟨[], [], rfl, (List.append_nil _).symm, .nil⟩
    | case2 => cases hread
    | case3 done t rest a ha ih =>
        rw [decodeItems, ha] at hread
        obtain ⟨v, rfl⟩ := h room t a ha
        obtain ⟨vs, bs, rfl, rfl, hall⟩ := ih hread
        exact ⟨v :: vs, a :: bs, rfl, by simp, .cons ha hall⟩
    | case4 done t rest f hf =>
        rw [decodeItems, hf] at hread
        cases hread
  · rintro ⟨vs, bs, rfl, rfl, hall⟩
    induction hall generalizing done with
    | nil => rw [itemsOf, decodeItems, List.append_nil]
    | @cons v a vs bs ha _ ih =>
        rw [itemsOf, decodeItems, ha]
        dsimp only
        rw [ih, List.reverse_cons, List.append_assoc, List.singleton_append]

/-- A list was written as an array of what its items were read from. -/
theorem decodeList_ok_iff (h : OnValues read) {room : Nat} {t : Tree} {as : List α} :
    decodeList read room t = .ok as ↔
      ∃ room' vs, room = room' + 1 ∧ t = tree (.array vs) ∧
        List.Forall₂ (fun v a => read room' (tree v) = .ok a) vs as := by
  constructor
  · intro hread
    unfold decodeList at hread
    split at hread
    · cases hread
    · obtain ⟨vs, bs, rfl, rfl, hall⟩ := (decodeItems_ok_iff h).1 hread
      exact ⟨_, vs, rfl, rfl, hall⟩
    · exact absurd hread not_ok_mismatch
  · rintro ⟨room, vs, rfl, rfl, hall⟩
    exact (decodeItems_ok_iff h).2 ⟨vs, as, rfl, rfl, hall⟩

theorem onValues_list (h : OnValues read) : OnValues (decodeList read) := by
  intro room t as has
  obtain ⟨_, vs, _, rfl, -⟩ := (decodeList_ok_iff h).1 has
  exact ⟨.array vs, rfl⟩

end

/-! ## Values under keys -/

section

variable {key : String} {members : List (String × Json)}

theorem get?_cons (m : String × Json) (rest : List (String × Json)) :
    get? key (m :: rest) = if m.1 = key then some m.2 else get? key rest := by
  rw [get?, List.find?_cons]
  by_cases h : m.1 = key
  · rw [if_pos h, beq_iff_eq.2 h]
    rfl
  · rw [if_neg h, beq_eq_false_iff_ne.2 h]
    rfl

theorem get?_eq_none (h : key ∉ members.map (·.1)) : get? key members = none := by
  induction members with
  | nil => rfl
  | cons m rest ih =>
      rw [List.map_cons, List.mem_cons, not_or] at h
      rw [get?_cons, if_neg (Ne.symm h.1), ih h.2]

theorem get?_eq_some {v : Json} (hnodup : (members.map (·.1)).Nodup) (h : (key, v) ∈ members) :
    get? key members = some v := by
  induction members with
  | nil => cases h
  | cons m rest ih =>
      rw [List.map_cons, List.nodup_cons] at hnodup
      rw [get?_cons]
      obtain rfl | hmem := List.mem_cons.1 h
      · exact if_pos rfl
      · have hne : m.1 ≠ key := by
          rintro rfl
          exact hnodup.1 (List.mem_map.2 ⟨_, hmem, rfl⟩)
        rw [if_neg hne, ih hnodup.2 hmem]

end

/-! ## Choices -/

section

variable {α : Type} {c : Choice α}

/-- What follows the only member of a choice that was read well. -/
theorem close_ok_iff {members : Members} : members.close = .ok () ↔ members = .closed := by
  unfold Members.close
  split
  · exact ⟨fun _ => rfl, fun _ => rfl⟩
  all_goals exact ⟨nofun, nofun⟩

/-- A choice was written as its name, or as an object with the name for its only key. -/
theorem Choice.decode_ok_iff {room : Nat} {t : Tree} {a : α} :
    c.decode room t = .ok a ↔
      (∃ name, t = .text (.ok name) ∧ c.plain name = some (.ok a)) ∨
      ∃ room' name u read, room = room' + 1 ∧ t = .object (.cons (.ok name) u .closed) ∧
        c.keyed name = some read ∧ read room' u = .ok a := by
  constructor
  · intro h
    unfold Choice.decode at h
    split at h
    · obtain ⟨name, rfl, hname⟩ := ok_of_bind h
      split at hname
      · next hplain => exact .inl ⟨name, rfl, hname ▸ hplain⟩
      · cases hname
    · cases h
    · split at h
      · cases h
      · cases h
      · obtain ⟨name, rfl, hname⟩ := ok_of_bind h
        split at hname
        · cases hname
        · next read hread =>
            obtain ⟨a, ha, hrest⟩ := ok_of_bind hname
            obtain ⟨_, hclose, hrest⟩ := ok_of_bind hrest
            cases hrest
            obtain rfl := close_ok_iff.1 hclose
            exact .inr ⟨_, name, _, read, rfl, rfl, hread, ha⟩
    all_goals cases h
  · rintro (⟨name, rfl, hplain⟩ | ⟨room, name, u, read, rfl, rfl, hkeyed, hread⟩)
    · simp only [Choice.decode, hplain, bind, Except.bind]
    · simp only [Choice.decode, hkeyed, hread, Members.close, bind, Except.bind]
      rfl

theorem Choice.decode_value_iff {room : Nat} {v : Json} {a : α} :
    c.decode room v.tree = .ok a ↔
      (∃ name, v = .text name ∧ c.plain name = some (.ok a)) ∨
      ∃ room' name w read, room = room' + 1 ∧ v = .object [(name, w)] ∧
        c.keyed name = some read ∧ read room' w.tree = .ok a := by
  rw [Choice.decode_ok_iff]
  constructor
  · rintro (⟨name, hv, hplain⟩ | ⟨room, name, u, read, rfl, hv, hkeyed, hread⟩)
    · exact .inl ⟨name, tree_injective (w := .text name) hv, hplain⟩
    · obtain ⟨w, rfl, rfl⟩ := single_of_tree hv
      exact .inr ⟨room, name, w, read, rfl, rfl, hkeyed, hread⟩
  · rintro (⟨name, rfl, hplain⟩ | ⟨room, name, w, read, rfl, rfl, hkeyed, hread⟩)
    · exact .inl ⟨name, rfl, hplain⟩
    · exact .inr ⟨room, name, w.tree, read, rfl, rfl, hkeyed, hread⟩

/-- A constant was written as its name, perhaps with null for its payload. -/
theorem Choice.decode_constants_iff {names : List String} {value : String → Option α}
    {room : Nat} {v : Json} {a : α} :
    (Choice.constants names value).decode room v.tree = .ok a ↔
      ∃ name, value name = some a ∧
        (v = .text name ∨ room ≠ 0 ∧ v = .object [(name, .null)]) := by
  rw [Choice.decode_value_iff]
  constructor
  · rintro (⟨name, rfl, hplain⟩ | ⟨room, name, w, read, rfl, rfl, hkeyed, hread⟩)
    · obtain ⟨b, hb, hok⟩ := Option.map_eq_some_iff.1 hplain
      exact ⟨name, Except.ok.inj hok ▸ hb, .inl rfl⟩
    · obtain ⟨b, hb, rfl⟩ := Option.map_eq_some_iff.1 hkeyed
      obtain ⟨rfl, rfl⟩ := decodeUnit_ok_iff.1 hread
      exact ⟨name, hb, .inr ⟨Nat.succ_ne_zero room, rfl⟩⟩
  · rintro ⟨name, hvalue, rfl | ⟨hroom, rfl⟩⟩
    · exact .inl ⟨name, rfl, Option.map_eq_some_iff.2 ⟨a, hvalue, rfl⟩⟩
    · obtain ⟨room, rfl⟩ := Nat.exists_eq_succ_of_ne_zero hroom
      exact .inr ⟨room, name, .null, decodeUnit a, rfl, rfl,
        Option.map_eq_some_iff.2 ⟨a, hvalue, rfl⟩, decodeUnit_ok_iff.2 ⟨rfl, rfl⟩⟩

theorem Choice.onValues (hkeyed : ∀ name read, c.keyed name = some read → OnValues read) :
    OnValues c.decode := by
  intro room t a h
  obtain ⟨name, rfl, -⟩ | ⟨room, name, u, read, -, rfl, hread, ha⟩ := Choice.decode_ok_iff.1 h
  · exact ⟨.text name, rfl⟩
  · obtain ⟨w, rfl⟩ := hkeyed name read hread room u a ha
    exact ⟨.object [(name, w)], rfl⟩

theorem Choice.onValues_constants {names : List String} {value : String → Option α} :
    OnValues (Choice.constants names value).decode :=
  Choice.onValues fun name read h => by
    obtain ⟨a, -, rfl⟩ := Option.map_eq_some_iff.1 h
    exact onValues_unit

end

/-! ## Records -/

section

variable {δ γ : Type}

/-- A slot that is filled well only from the trees of values. -/
def Slot.OnValues (slot : Slot δ) : Prop :=
  ∀ room t d d', slot.fill room t d = .ok d' → ∃ v : Json, t = v.tree

/-- Filling a slot sets a part of the draft to what a decoder reads. -/
def Slot.Sets (slot : Slot δ) (part : δ → γ) (read : Decoder γ) : Prop :=
  ∀ room t d, (slot.fill room t d).map part = read room t

/-- Filling a slot leaves a part of the draft alone. -/
def Slot.Keeps (slot : Slot δ) (part : δ → γ) : Prop :=
  ∀ room t d d', slot.fill room t d = .ok d' → part d' = part d

theorem Slot.onValues_map {α : Type} {key : String} {read : Decoder α} {set : α → δ → δ}
    (h : Json.OnValues read) :
    Slot.OnValues ⟨key, fun room t d => (read room t).map (set · d)⟩ := by
  intro room t d d' hfill
  obtain ⟨a, ha, -⟩ := ok_of_map hfill
  exact h room t a ha

theorem Slot.sets_map {α : Type} {key : String} {read : Decoder α} {set : α → δ → δ}
    {part : δ → γ} {f : α → γ} (h : ∀ a d, part (set a d) = f a) :
    Slot.Sets ⟨key, fun room t d => (read room t).map (set · d)⟩ part
      fun room t => (read room t).map f := by
  intro room t d
  cases hread : read room t with
  | error e => simp only [hread, Except.map]
  | ok a => simp only [hread, Except.map, h]

theorem Slot.sets_id {key : String} {read : Decoder γ} {set : γ → δ → δ} {part : δ → γ}
    (h : ∀ c d, part (set c d) = c) :
    Slot.Sets ⟨key, fun room t d => (read room t).map (set · d)⟩ part read := by
  intro room t d
  cases hread : read room t with
  | error e => simp only [hread, Except.map]
  | ok c => simp only [hread, Except.map, h]

theorem Slot.keeps_map {α : Type} {key : String} {read : Decoder α} {set : α → δ → δ}
    {part : δ → γ} (h : ∀ a d, part (set a d) = part d) :
    Slot.Keeps ⟨key, fun room t d => (read room t).map (set · d)⟩ part := by
  intro room t d d' hfill
  obtain ⟨a, -, rfl⟩ := ok_of_map hfill
  exact h a d

namespace Record

variable {r : Record δ}

/-- A record whose slots have keys of their own and that takes nothing besides them. -/
structure Strict (r : Record δ) : Prop where
  strict : r.strict = true
  rest : r.rest = none
  keys : (r.slots.map (·.key)).Nodup
  required : r.required ≤ r.slots.length

/-- The values for some slots, with the keys of the slots. -/
def named (fields : List (Slot δ × Json)) : List (String × Json) :=
  fields.map fun f => (f.1.key, f.2)

theorem named_keys (fields : List (Slot δ × Json)) :
    (named fields).map (·.1) = fields.map (·.1.key) := by
  rw [named, List.map_map]
  rfl

/-- Members whose keys are all known are values for slots. -/
theorem exists_named {members : List (String × Json)}
    (h : ∀ m ∈ members, m.1 ∈ r.slots.map (·.key)) :
    ∃ fields, named fields = members ∧ ∀ f ∈ fields, f.1 ∈ r.slots := by
  induction members with
  | nil => exact ⟨[], rfl, fun f hf => by cases hf⟩
  | cons m rest ih =>
      rw [List.forall_mem_cons] at h
      obtain ⟨slot, hslot, hkey⟩ := List.mem_map.1 h.1
      obtain ⟨fields, rfl, hfields⟩ := ih h.2
      refine ⟨(slot, m.2) :: fields, ?_, List.forall_mem_cons.2 ⟨hslot, hfields⟩⟩
      rw [named, List.map_cons, hkey, ← named]

/-- Fills slots one after the other. -/
def fill (room : Nat) (fields : List (Slot δ × Json)) (d : δ) : Except Fault δ :=
  fields.foldlM (fun d f => f.1.fill room f.2.tree d) d

theorem find?_slot {slots : List (Slot δ)} (hkeys : (slots.map (·.key)).Nodup) {slot : Slot δ}
    (h : slot ∈ slots) : slots.find? (·.key == slot.key) = some slot := by
  induction slots with
  | nil => cases h
  | cons s rest ih =>
      rw [List.map_cons, List.nodup_cons] at hkeys
      rw [List.find?_cons]
      obtain rfl | hmem := List.mem_cons.1 h
      · simp
      · have hne : (s.key == slot.key) = false := by
          rw [beq_eq_false_iff_ne]
          intro heq
          exact hkeys.1 (heq ▸ List.mem_map_of_mem hmem)
        rw [hne]
        exact ih hkeys.2 hmem

/-- What was read from an object are values under keys of their own. -/
theorem fields_of_fromMembers (hr : r.Strict) (hvalues : ∀ slot ∈ r.slots, slot.OnValues)
    {room : Nat} {d : δ} : ∀ (members : Members) (seen : List String) (draft : δ),
    r.fromMembers room seen members draft = .ok d →
    ∃ fields, members = membersOf (named fields) ∧ (fields.map (·.1.key)).Nodup ∧
      (∀ f ∈ fields, f.1 ∈ r.slots ∧ f.1.key ∉ seen) ∧ fill room fields draft = .ok d
  | .closed, seen, draft, h => ⟨[], rfl, .nil, by simp, h⟩
  | .stopped .., seen, draft, h => by cases h
  | .cons (.error _) _ _, seen, draft, h => by cases h
  | .cons (.ok key) t rest, seen, draft, h => by
      obtain ⟨_, hkey, h⟩ := ok_of_bind h
      cases hkey
      split at h
      · next slot hslot =>
          obtain rfl : slot.key = key := by simpa using List.find?_some hslot
          have hmem := List.mem_of_find?_eq_some hslot
          split at h
          · cases h
          · next hseen =>
              obtain ⟨between, hfill, hmore⟩ := ok_of_bind h
              obtain ⟨v, rfl⟩ := hvalues slot hmem room t draft between hfill
              obtain ⟨fields, rfl, hnodup, hfields, hrest⟩ :=
                fields_of_fromMembers hr hvalues rest _ between hmore
              refine ⟨(slot, v) :: fields, rfl, ?_, ?_, ?_⟩
              · refine List.nodup_cons.2 ⟨fun hin => ?_, hnodup⟩
                obtain ⟨f, hf, hfkey⟩ := List.mem_map.1 hin
                exact (hfields f hf).2 (List.mem_cons.2 (.inl hfkey))
              · rw [List.forall_mem_cons]
                refine ⟨⟨hmem, by simpa using hseen⟩, fun f hf => ⟨(hfields f hf).1, fun hin => ?_⟩⟩
                exact (hfields f hf).2 (List.mem_cons_of_mem _ hin)
              · rw [fill, List.foldlM_cons, hfill]
                exact hrest
      · rw [hr.rest] at h
        simp only [hr.strict, if_true] at h
        cases h

/-- Values under keys of their own are read in their order. -/
theorem fromMembers_named (hr : r.Strict) (room : Nat) {fields : List (Slot δ × Json)}
    {seen : List String} {draft : δ} (hnodup : (fields.map (·.1.key)).Nodup)
    (hfields : ∀ f ∈ fields, f.1 ∈ r.slots ∧ f.1.key ∉ seen) :
    r.fromMembers room seen (membersOf (named fields)) draft = fill room fields draft := by
  induction fields generalizing seen draft with
  | nil => rfl
  | cons f rest ih =>
      rw [List.map_cons, List.nodup_cons] at hnodup
      rw [List.forall_mem_cons] at hfields
      obtain ⟨⟨hmem, hseen⟩, hrest⟩ := hfields
      have hnext : ∀ g ∈ rest, g.1 ∈ r.slots ∧ g.1.key ∉ f.1.key :: seen := by
        intro g hg
        refine ⟨(hrest g hg).1, ?_⟩
        rw [List.mem_cons, not_or]
        exact ⟨fun heq => hnodup.1 (heq ▸ List.mem_map_of_mem hg), (hrest g hg).2⟩
      have hcontains : seen.contains f.1.key = false := by simpa using hseen
      rw [fill, List.foldlM_cons]
      show r.fromMembers room seen (.cons (.ok f.1.key) f.2.tree (membersOf (named rest))) draft = _
      rw [fromMembers]
      simp only [bind, Except.bind, find?_slot hr.keys hmem, hcontains, Bool.false_eq_true, if_false]
      cases f.1.fill room f.2.tree draft with
      | error e => rfl
      | ok between => exact ih hnodup.2 hnext

/-- What was read from an array are the values of the first slots. -/
theorem fields_of_fromItems {room : Nat} {d : δ} : ∀ (slots : List (Slot δ)) (index : Nat)
    (items : Items) (draft : δ), (∀ slot ∈ slots, slot.OnValues) →
    r.fromItems room index slots items draft = .ok d →
    ∃ fields : List (Slot δ × Json), items = itemsOf (fields.map (·.2)) ∧
      fields.map (·.1) = slots.take fields.length ∧
      (fields.length = slots.length ∨ r.required ≤ index + fields.length) ∧
      fill room fields draft = .ok d
  | [], index, items, draft, _, h => by
      obtain ⟨_, hend, h⟩ := ok_of_bind h
      unfold endOfItems at hend
      split at hend
      · exact ⟨[], rfl, rfl, .inl rfl, h⟩
      all_goals cases hend
  | _ :: _, index, .closed, draft, _, h => by
      rw [fromItems] at h
      split at h
      · next hrequired => exact ⟨[], rfl, rfl, .inr hrequired, h⟩
      · cases h
  | _ :: _, _, .stopped _, _, _, h => by cases h
  | slot :: slots, index, .cons t rest, draft, hvalues, h => by
      obtain ⟨hslot, hslots⟩ := List.forall_mem_cons.1 hvalues
      obtain ⟨between, hfill, hmore⟩ := ok_of_bind h
      obtain ⟨v, rfl⟩ := hslot room t draft between hfill
      obtain ⟨fields, rfl, htake, hlength, hrest⟩ :=
        fields_of_fromItems slots (index + 1) rest between hslots hmore
      refine ⟨(slot, v) :: fields, rfl, ?_, ?_, ?_⟩
      · rw [List.map_cons, List.length_cons, List.take_succ_cons, htake]
      · rw [List.length_cons, List.length_cons]
        omega
      · rw [fill, List.foldlM_cons, hfill]
        exact hrest

theorem fromItems_placed {room : Nat} {slots : List (Slot δ)} {index : Nat}
    {fields : List (Slot δ × Json)} {draft : δ} (htake : fields.map (·.1) = slots.take fields.length)
    (hlength : fields.length = slots.length ∨ r.required ≤ index + fields.length) :
    r.fromItems room index slots (itemsOf (fields.map (·.2))) draft = fill room fields draft := by
  induction fields generalizing slots index draft with
  | nil =>
      cases slots with
      | nil => rfl
      | cons slot slots =>
          obtain h | h := hlength
          · cases h
          · exact if_pos h
  | cons f rest ih =>
      cases slots with
      | nil => cases htake
      | cons slot slots =>
          rw [List.map_cons, List.length_cons, List.take_succ_cons] at htake
          obtain ⟨rfl, hrest⟩ := List.cons.inj htake
          rw [fill, List.foldlM_cons]
          show (f.1.fill room f.2.tree draft >>= fun draft =>
            r.fromItems room (index + 1) slots (itemsOf (rest.map (·.2))) draft) = _
          cases f.1.fill room f.2.tree draft with
          | error e => rfl
          | ok between =>
              refine ih hrest ?_
              rw [List.length_cons, List.length_cons] at hlength
              omega

/-- The two ways to write a record: an object with a key for each field, and an array of the
values of the first fields. -/
inductive Laid (r : Record δ) (fields : List (Slot δ × Json)) : Json → Prop where
  | named : (fields.map (·.1.key)).Nodup → (∀ f ∈ fields, f.1 ∈ r.slots) →
      Laid r fields (.object (named fields))
  | placed : fields.map (·.1) = r.slots.take fields.length → r.required ≤ fields.length →
      Laid r fields (.array (fields.map (·.2)))

theorem Laid.mem {fields : List (Slot δ × Json)} {v : Json} (h : r.Laid fields v) :
    ∀ f ∈ fields, f.1 ∈ r.slots := by
  cases h with
  | named _ hmem => exact hmem
  | placed htake _ =>
      intro f hf
      have hin : f.1 ∈ fields.map (·.1) := List.mem_map_of_mem hf
      exact List.mem_of_mem_take (htake ▸ hin)

theorem Laid.nodup {fields : List (Slot δ × Json)} {v : Json} (hr : r.Strict)
    (h : r.Laid fields v) : (fields.map (·.1.key)).Nodup := by
  cases h with
  | named hnodup _ => exact hnodup
  | placed htake _ =>
      have hkeys : fields.map (·.1.key) = (r.slots.map (·.key)).take fields.length := by
        rw [← List.map_take, ← htake, List.map_map]
        rfl
      exact hkeys ▸ hr.keys.sublist (List.take_sublist ..)

/-- What was read as a record was written in one of the two ways. -/
theorem decode_ok_iff (hr : r.Strict) (hvalues : ∀ slot ∈ r.slots, slot.OnValues)
    {empty d : δ} {room : Nat} {t : Tree} :
    r.decode empty room t = .ok d ↔
      ∃ room' v fields, room = room' + 1 ∧ t = tree v ∧ r.Laid fields v ∧
        fill room' fields empty = .ok d := by
  constructor
  · intro h
    unfold decode at h
    split at h
    · cases h
    · cases h
    · rw [hr.rest] at h
      obtain ⟨fields, rfl, htake, hlength, hfill⟩ := fields_of_fromItems _ _ _ _ hvalues h
      refine ⟨_, .array (fields.map (·.2)), fields, rfl, rfl, .placed htake ?_, hfill⟩
      have := hr.required
      omega
    · obtain ⟨fields, rfl, hnodup, hfields, hfill⟩ := fields_of_fromMembers hr hvalues _ _ _ h
      exact ⟨_, .object (named fields), fields, rfl, rfl,
        .named hnodup fun f hf => (hfields f hf).1, hfill⟩
    · exact absurd h not_ok_mismatch
  · rintro ⟨room, v, fields, rfl, rfl, hlaid, hfill⟩
    cases hlaid with
    | named hnodup hmem =>
        rw [← hfill]
        exact fromMembers_named hr room hnodup fun f hf => ⟨hmem f hf, List.not_mem_nil⟩
    | placed htake hrequired =>
        rw [← hfill]
        show (if r.rest.isSome then _ else _) = _
        rw [hr.rest]
        exact fromItems_placed htake (.inr (by omega))

/-! ### Parts of a record -/

/-- A part of the draft that belongs to the slot of one key. -/
def Field (r : Record δ) (key : String) (part : δ → γ) (read : Decoder γ) : Prop :=
  ∀ slot ∈ r.slots, slot.key = key ∧ slot.Sets part read ∨ slot.key ≠ key ∧ slot.Keeps part

section

variable {key : String} {part : δ → γ} {read : Decoder γ} {room : Nat}
  {fields : List (Slot δ × Json)}

/-- The part of a key is what was read under the key, or what it was before. -/
theorem Field.of_fill (hfield : r.Field key part read) {d d' : δ}
    (hnodup : (fields.map (·.1.key)).Nodup) (hmem : ∀ f ∈ fields, f.1 ∈ r.slots)
    (h : fill room fields d = .ok d') :
    (match get? key (named fields) with
      | some v => read room v.tree
      | none => .ok (part d)) = .ok (part d') := by
  induction fields generalizing d with
  | nil =>
      cases h
      rfl
  | cons f rest ih =>
      rw [List.map_cons, List.nodup_cons] at hnodup
      rw [List.forall_mem_cons] at hmem
      rw [fill, List.foldlM_cons] at h
      obtain ⟨between, hfill, h⟩ := ok_of_bind h
      have hrest := ih hnodup.2 hmem.2 h
      rw [named, List.map_cons, get?_cons, ← named]
      obtain ⟨hkey, hsets⟩ | ⟨hkey, hkeeps⟩ := hfield f.1 hmem.1
      · rw [get?_eq_none (named_keys rest ▸ hkey ▸ hnodup.1)] at hrest
        have hread := hsets room f.2.tree d
        rw [hfill] at hread
        rw [if_pos hkey, ← hrest]
        exact hread.symm
      · rw [if_neg hkey, ← hkeeps _ _ _ _ hfill]
        exact hrest

theorem exists_fill (h : ∀ f ∈ fields, ∀ d, ∃ d', f.1.fill room f.2.tree d = .ok d') (d : δ) :
    ∃ d', fill room fields d = .ok d' := by
  induction fields generalizing d with
  | nil => exact ⟨d, rfl⟩
  | cons f rest ih =>
      obtain ⟨hf, hrest⟩ := List.forall_mem_cons.1 h
      obtain ⟨between, hbetween⟩ := hf d
      obtain ⟨d', hd'⟩ := ih hrest between
      refine ⟨d', ?_⟩
      rw [fill, List.foldlM_cons, hbetween]
      exact hd'

theorem get?_of_mem {f : Slot δ × Json} (hnodup : (fields.map (·.1.key)).Nodup)
    (h : f ∈ fields) : get? f.1.key (named fields) = some f.2 :=
  get?_eq_some (named_keys fields ▸ hnodup) (List.mem_map.2 ⟨f, h, rfl⟩)

/-- A field that has to be given, of a draft in which it was not. -/
theorem Field.some_iff {α : Type} {part : δ → Option α} {read : Decoder α}
    (hfield : r.Field key part fun room t => (read room t).map some) {empty d : δ} {a : α}
    (hempty : part empty = none) (hnodup : (fields.map (·.1.key)).Nodup)
    (hmem : ∀ f ∈ fields, f.1 ∈ r.slots) (h : fill room fields empty = .ok d) :
    part d = some a ↔ ∃ w, get? key (named fields) = some w ∧ read room w.tree = .ok a := by
  have hpart := hfield.of_fill hnodup hmem h
  cases hget : get? key (named fields) with
  | none =>
      rw [hget, hempty] at hpart
      rw [← Except.ok.inj hpart]
      simp
  | some w =>
      rw [hget] at hpart
      obtain ⟨b, hb, hd⟩ := ok_of_map hpart
      rw [← hd]
      simp [hb]

/-- A field that may be left out, and then has a default. -/
theorem Field.getD_eq {α : Type} {part : δ → Option α} {read : Decoder α}
    (hfield : r.Field key part fun room t => (read room t).map some) {empty d : δ} {default : α}
    (hempty : part empty = none) (hnodup : (fields.map (·.1.key)).Nodup)
    (hmem : ∀ f ∈ fields, f.1 ∈ r.slots) (h : fill room fields empty = .ok d) :
    (match get? key (named fields) with
      | some w => read room w.tree
      | none => .ok default) = .ok ((part d).getD default) := by
  have hpart := hfield.of_fill hnodup hmem h
  cases hget : get? key (named fields) with
  | none =>
      rw [hget, hempty] at hpart
      rw [← Except.ok.inj hpart]
      rfl
  | some w =>
      rw [hget] at hpart
      obtain ⟨b, hb, hd⟩ := ok_of_map hpart
      rw [← hd]
      exact hb

/-- A slot among the fields is filled, if its decoder reads the value under its key. -/
theorem Field.fills (hfield : r.Field key part read) (hnodup : (fields.map (·.1.key)).Nodup)
    (hmem : ∀ f ∈ fields, f.1 ∈ r.slots) {f : Slot δ × Json} (hf : f ∈ fields)
    (hkey : f.1.key = key)
    (h : ∀ w, get? key (named fields) = some w → ∃ c, read room w.tree = .ok c) (d : δ) :
    ∃ d', f.1.fill room f.2.tree d = .ok d' := by
  obtain ⟨-, hsets⟩ | ⟨hne, -⟩ := hfield f.1 (hmem f hf)
  · obtain ⟨c, hc⟩ := h f.2 (hkey ▸ get?_of_mem hnodup hf)
    have hmap := hsets room f.2.tree d
    rw [hc] at hmap
    obtain ⟨d', hd', -⟩ := ok_of_map hmap
    exact ⟨d', hd'⟩
  · exact absurd hkey hne

end

end Record

end

theorem require_ok_iff {α : Type} {key : String} {o : Option α} {a : α} :
    require key o = .ok a ↔ o = some a := by
  cases o <;> simp [require]

/-! ## Whole texts -/

/-- A text is read well when it is one of a value that the decoder reads. -/
theorem decodeWhole_ok_iff {α : Type} {read : Decoder α} (hread : OnValues read) {text : String}
    {a : α} :
    decodeWhole read text = .ok a ↔
      ∃ v : Json, v.Written text.toList ∧ read nestingRoom v.tree = .ok a := by
  unfold decodeWhole
  constructor
  · intro h
    cases hbuild : build .value [] (tokens text.toList) with
    | mk t rest =>
        rw [hbuild] at h
        obtain ⟨b, hb, hend⟩ := ok_of_bind h
        obtain ⟨v, rfl⟩ := hread _ _ _ hb
        cases rest with
        | nil =>
            cases hend
            exact ⟨v, build_tokens_iff.1 hbuild, hb⟩
        | cons t ts => cases hend
  · rintro ⟨v, hwritten, ha⟩
    rw [build_tokens_iff.2 hwritten]
    simp only [ha, bind, Except.bind]
    rfl

end RequestLog.Json
