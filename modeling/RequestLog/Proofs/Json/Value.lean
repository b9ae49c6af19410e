import RequestLog.Proofs.Json.Decode

/-!
# Values as they are read

Reading a value of any shape keeps it, except that of a key that is repeated in an object
only the last value is left (`Json.kept`). Nothing but the nesting can go wrong: a value is
read if the brackets in it are no deeper than there is room for (`toJson_tree`).
-/

namespace RequestLog.Json

mutual

/-- How many brackets stand around the innermost value. -/
def depth : Json → Nat
  | .array items => depthOfItems items + 1
  | .object members => depthOfMembers members + 1
  | _ => 0

def depthOfItems : List Json → Nat
  | [] => 0
  | v :: rest => max v.depth (depthOfItems rest)

def depthOfMembers : List (String × Json) → Nat
  | [] => 0
  | (_, v) :: rest => max v.depth (depthOfMembers rest)

end

mutual

/-- A value without what repeated keys replace. -/
def kept : Json → Json
  | .array items => .array (keptItems items)
  | .object members => .object (keptMembers [] members)
  | v => v

def keptItems : List Json → List Json
  | [] => []
  | v :: rest => v.kept :: keptItems rest

/-- Members put behind those already kept, or in their place. -/
def keptMembers (done : List (String × Json)) : List (String × Json) → List (String × Json)
  | [] => done
  | (key, v) :: rest => keptMembers (put key v.kept done) rest

end

/-! ## Reading -/

mutual

theorem toJson_tree : ∀ (v : Json) (room : Nat), v.depth ≤ room →
    toJson room v.tree = .ok v.kept
  | .null, _, _ => rfl
  | .bool _, _, _ => rfl
  | .number _, _, _ => rfl
  | .text _, _, _ => rfl
  | .array items, 0, h => absurd h (Nat.not_succ_le_zero _)
  | .object members, 0, h => absurd h (Nat.not_succ_le_zero _)
  | .array items, room + 1, h => by
      rw [depth] at h
      rw [tree, toJson, itemsToJson_items items room [] (Nat.le_of_succ_le_succ h)]
      rfl
  | .object members, room + 1, h => by
      rw [depth] at h
      rw [tree, toJson, membersToJson_members members room [] (Nat.le_of_succ_le_succ h)]
      rfl

theorem itemsToJson_items : ∀ (items : List Json) (room : Nat) (done : List Json),
    depthOfItems items ≤ room →
    itemsToJson room done (itemsOf items) = .ok (done.reverse ++ keptItems items)
  | [], room, done, _ => by rw [itemsOf, itemsToJson, keptItems, List.append_nil]
  | v :: rest, room, done, h => by
      rw [depthOfItems, Nat.max_le] at h
      rw [itemsOf, itemsToJson, toJson_tree v room h.1]
      simp only [itemsToJson_items rest room _ h.2, keptItems, List.reverse_cons,
        List.append_assoc, List.singleton_append]

theorem membersToJson_members : ∀ (members : List (String × Json)) (room : Nat)
    (done : List (String × Json)), depthOfMembers members ≤ room →
    membersToJson room done (membersOf members) = .ok (keptMembers done members)
  | [], room, done, _ => by rw [membersOf, membersToJson, keptMembers]
  | (key, v) :: rest, room, done, h => by
      rw [depthOfMembers, Nat.max_le] at h
      rw [membersOf, membersToJson, keptMembers]
      simp only [toJson_tree v room h.1, membersToJson_members rest room _ h.2]

end

theorem decodeObject_tree {members : List (String × Json)} {room : Nat}
    (h : (Json.object members).depth ≤ room) :
    decodeObject room (Json.object members).tree = .ok (keptMembers [] members) := by
  rw [depth] at h
  cases room with
  | zero => exact absurd h (Nat.not_succ_le_zero _)
  | succ room => exact membersToJson_members members room [] (Nat.le_of_succ_le_succ h)

theorem object_of_decodeObject {room : Nat} {t : Tree} {values : List (String × Json)}
    (h : decodeObject room t = .ok values) :
    ∃ members, t = (Json.object members).tree := by
  unfold decodeObject at h
  split at h
  · cases h
  · obtain ⟨members, rfl⟩ := values_of_membersToJson _ _ _ _ h
    exact ⟨members, rfl⟩
  · exact absurd h not_ok_mismatch

/-! ## Members -/

section

variable {key name : String} {v : Json} {members : List (String × Json)}

theorem get?_append (members' : List (String × Json)) :
    get? name (members ++ members') = (get? name members).or (get? name members') := by
  induction members with
  | nil => rfl
  | cons m rest ih =>
      rw [List.cons_append, get?_cons, get?_cons, ih]
      split <;> rfl

/-- A value that replaces those of its key is found where there was one of them. -/
theorem get?_replaced :
    get? name (members.map fun m => if m.1 == key then (key, v) else m) =
      if key = name then (get? name members).map fun _ => v else get? name members := by
  induction members with
  | nil => split <;> rfl
  | cons m rest ih =>
      rw [List.map_cons, get?_cons, get?_cons, ih]
      by_cases hm : m.1 = key
      · subst hm
        rw [if_pos (beq_self_eq_true m.1)]
        split <;> rfl
      · rw [if_neg (mt eq_of_beq hm)]
        by_cases hname : key = name
        · subst hname
          rw [if_neg hm, if_neg hm]
        · rw [if_neg hname, if_neg hname]

theorem get?_isSome : (get? name members).isSome = members.any (·.1 == name) := by
  rw [get?, Option.isSome_map, Bool.eq_iff_iff, List.find?_isSome, List.any_eq_true]

/-- What is put under a key is found there, and nothing else is changed. -/
theorem get?_put :
    get? name (put key v members) = if key = name then some v else get? name members := by
  unfold put
  split
  · next hany =>
      rw [get?_replaced]
      by_cases hname : key = name
      · subst hname
        rw [if_pos rfl, if_pos rfl]
        rw [← get?_isSome] at hany
        obtain ⟨w, hw⟩ := Option.isSome_iff_exists.1 hany
        rw [hw, Option.map_some]
      · rw [if_neg hname, if_neg hname]
  · next hnone =>
      rw [get?_append, get?_cons]
      by_cases hname : key = name
      · subst hname
        rw [← get?_isSome, Bool.not_eq_true, Option.isSome_eq_false_iff, Option.isNone_iff_eq_none]
          at hnone
        rw [hnone, if_pos rfl, if_pos rfl]
        rfl
      · rw [if_neg hname, if_neg hname]
        exact Option.or_none

/-- The value that an object has under a key is the last one of the key. -/
def last? (name : String) (members : List (String × Json)) : Option Json :=
  get? name members.reverse

theorem get?_keptMembers (members done : List (String × Json)) :
    get? name (keptMembers done members) =
      ((last? name members).map kept).or (get? name done) := by
  induction members generalizing done with
  | nil => rfl
  | cons m rest ih =>
      obtain ⟨key, v⟩ := m
      rw [keptMembers, ih, get?_put, last?, last?, List.reverse_cons, get?_append, get?_cons]
      cases get? name rest.reverse with
      | some w => rfl
      | none =>
          by_cases hname : key = name
          · simp [hname]
          · simp [hname, get?]

end

end RequestLog.Json
