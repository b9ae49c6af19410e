import Mathlib.Algebra.Order.BigOperators.Group.List
import Mathlib.Data.List.Nodup
import RequestLog.Proofs.Instant.Written
import RequestLog.Proofs.Json.Decode
import RequestLog.Proofs.Json.Tree

/-!
# How short the text of a value can be

Every token takes a character, and every character takes a byte. So a text has at least as
many bytes as its value has tokens, however it is written: blanks, escapes and long numbers
only add to it. What a value is made of is counted in its tokens: an item of an array comes
with a comma or the bracket behind it, and a member of an object with its key and a colon as
well.
-/

namespace RequestLog.Json

/-- How many tokens a value has. -/
def size (v : Json) : Nat := v.tree.tokens.length

theorem Word.length_pos {t : Token} {w : List Char} (h : Word t w) : 0 < w.length := by
  cases h with
  | number hspelled _ =>
      obtain ⟨c, more, rfl, -⟩ := hspelled.head
      exact Nat.succ_pos _
  | punct | null | true | false | text => exact Nat.succ_pos _

theorem Spells.length_le {ts : List Token} {cs : List Char} (h : Spells ts cs) :
    ts.length ≤ cs.length := by
  induction h with
  | nil => exact Nat.le_refl _
  | space _ _ ih => exact Nat.le_succ_of_le ih
  | word hword _ ih =>
      have hpos := hword.length_pos
      rw [List.length_cons, List.length_append]
      omega

theorem Written.size_le {v : Json} {text : String} (h : v.Written text.toList) :
    v.size ≤ text.utf8ByteSize :=
  Nat.le_trans (Spells.length_le h) (Instant.length_le_utf8ByteSize text)

/-! ## Parts of a value -/

theorem size_pos (v : Json) : 0 < v.size := by
  cases v <;> exact Nat.succ_pos _

theorem length_more_itemsOf (vs : List Json) :
    (itemsOf vs).more.length = (vs.map fun v => v.size + 1).sum + 1 := by
  induction vs with
  | nil => rfl
  | cons v rest ih =>
      rw [itemsOf, Items.more, List.length_cons, List.length_append, ih, List.map_cons,
        List.sum_cons, size]
      omega

theorem sum_lt_size_array (vs : List Json) :
    (vs.map fun v => v.size + 1).sum < (Json.array vs).size := by
  rw [size, tree, Tree.tokens, List.length_cons]
  cases vs with
  | nil => exact Nat.succ_pos _
  | cons v rest =>
      rw [itemsOf, Items.tokens, List.length_append, length_more_itemsOf, List.map_cons,
        List.sum_cons, size]
      omega

/-- An array has more than two tokens for each of its items. -/
theorem two_mul_length_lt_size (vs : List Json) : 2 * vs.length < (Json.array vs).size := by
  have hle : vs.length * 2 ≤ (vs.map fun v => v.size + 1).sum := by
    have hitems : ∀ n ∈ vs.map fun v => v.size + 1, 2 ≤ n :=
      List.forall_mem_map.2 fun v _ => Nat.succ_le_succ v.size_pos
    simpa using List.card_nsmul_le_sum _ 2 hitems
  have hlt := sum_lt_size_array vs
  omega

theorem length_more_membersOf (ms : List (String × Json)) :
    (membersOf ms).more.length = (ms.map fun m => m.2.size + 3).sum + 1 := by
  induction ms with
  | nil => rfl
  | cons m rest ih =>
      rw [membersOf, Members.more, List.length_cons, List.length_cons, List.length_cons,
        List.length_append, ih, List.map_cons, List.sum_cons, size]
      omega

theorem sum_lt_size_object (ms : List (String × Json)) :
    (ms.map fun m => m.2.size + 3).sum < (Json.object ms).size := by
  rw [size, tree, Tree.tokens, List.length_cons]
  cases ms with
  | nil => exact Nat.succ_pos _
  | cons m rest =>
      rw [membersOf, Members.tokens, List.length_cons, List.length_cons, List.length_append,
        length_more_membersOf, List.map_cons, List.sum_cons, size]
      omega

theorem size_member (key : String) (w : Json) : (Json.object [(key, w)]).size = w.size + 4 := by
  simp [size, tree, membersOf, Tree.tokens, Members.tokens, Members.more]

theorem length_of_itemsToJson {room : Nat} {vs done js : List Json}
    (h : itemsToJson room done (itemsOf vs) = .ok js) : js.length = done.length + vs.length := by
  induction vs generalizing done with
  | nil =>
      cases h
      exact List.length_reverse
  | cons v rest ih =>
      rw [itemsOf, itemsToJson] at h
      split at h
      · rw [ih h, List.length_cons, List.length_cons]
        omega
      · cases h

/-! ## Values under keys -/

theorem mem_of_get? {key : String} {v : Json} {members : List (String × Json)}
    (h : get? key members = some v) : (key, v) ∈ members := by
  obtain ⟨m, hm, rfl⟩ := Option.map_eq_some_iff.1 h
  have hkey : (m.1 == key) = true := by simpa using List.find?_some hm
  rw [← beq_iff_eq.1 hkey]
  exact List.mem_of_find?_eq_some hm

theorem le_sum_of_get? (cost : Json → Nat) {key : String} {v : Json}
    {members : List (String × Json)} (h : get? key members = some v) :
    cost v ≤ (members.map fun m => cost m.2).sum :=
  List.single_le_sum (fun _ _ => Nat.zero_le _) _ (List.mem_map_of_mem (mem_of_get? h))

/-- Values under different keys are different members. -/
theorem sum_le_of_get? (cost : Json → Nat) {parts members : List (String × Json)}
    (hkeys : (parts.map (·.1)).Nodup) (hparts : ∀ p ∈ parts, get? p.1 members = some p.2) :
    (parts.map fun p => cost p.2).sum ≤ (members.map fun m => cost m.2).sum := by
  have hnodup : parts.Nodup := List.Nodup.of_map _ hkeys
  obtain ⟨chosen, hperm, hchosen⟩ :=
    List.subperm_of_subset hnodup fun p hp => mem_of_get? (hparts p hp)
  calc (parts.map fun p => cost p.2).sum
      = (chosen.map fun p => cost p.2).sum := (hperm.map _).sum_eq.symm
    _ ≤ (members.map fun m => cost m.2).sum :=
        (hchosen.map _).sum_le_sum fun _ _ => Nat.zero_le _

end RequestLog.Json
