import RequestLog.Json.Bytes

/-!
# The bytes of a text

The bytes of a text are taken for its characters, whatever bytes are behind them. Where they
are cut off, the characters that are whole remain; of a character that is cut itself there
remain bytes that are none, and no character that JSON gives a meaning stands in for them.
-/

namespace RequestLog.Json

open String (utf8EncodeChar)

/-- The bytes that a text has in UTF-8. -/
def encoded (cs : List Char) : List UInt8 := cs.flatMap utf8EncodeChar

theorem encoded_append (cs cs' : List Char) : encoded (cs ++ cs') = encoded cs ++ encoded cs' :=
  List.flatMap_append

theorem encoded_cons (c : Char) (cs : List Char) :
    encoded (c :: cs) = utf8EncodeChar c ++ encoded cs := List.flatMap_cons

/-! ## The first character -/

theorem length_utf8EncodeChar_le (c : Char) : (utf8EncodeChar c).length ≤ 4 := by
  rw [String.length_utf8EncodeChar]
  exact c.utf8Size_le_four

theorem firstChar?_append (c : Char) (bytes : List UInt8) :
    firstChar? (utf8EncodeChar c ++ bytes) = some c := by
  rw [firstChar?, List.take_append, List.take_of_length_le (length_utf8EncodeChar_le c),
    List.toByteArray_append, ByteArray.utf8DecodeChar?_utf8EncodeChar_append]

theorem exists_of_firstChar? {bytes : List UInt8} {c : Char} (h : firstChar? bytes = some c) :
    ∃ rest, bytes = utf8EncodeChar c ++ rest := by
  obtain ⟨l, hl⟩ := ByteArray.exists_of_utf8DecodeChar?_eq_some h
  have hfront : bytes.take 4 = utf8EncodeChar c ++ l.data.toList := by
    have hdata := congrArg (·.data.toList) hl
    simpa only [List.toList_data_toByteArray, ByteArray.data_append, Array.toList_append]
      using hdata
  refine ⟨l.data.toList ++ bytes.drop 4, ?_⟩
  rw [← List.append_assoc, ← hfront, List.take_append_drop]

/-! ## All characters -/

theorem characters_nil : characters [] = ([], 0) := by rw [characters]

theorem characters_append (c : Char) (bytes : List UInt8) :
    characters (utf8EncodeChar c ++ bytes) =
      (c :: (characters bytes).1, (characters bytes).2) := by
  obtain ⟨b, rest, hc⟩ := List.exists_cons_of_ne_nil (String.utf8EncodeChar_ne_nil (c := c))
  have hfirst := firstChar?_append c bytes
  have hlength : rest.length = c.utf8Size - 1 := by
    have := String.length_utf8EncodeChar c
    rw [hc, List.length_cons] at this
    omega
  rw [hc, List.cons_append] at hfirst ⊢
  rw [characters, hfirst]
  simp only [← hlength, List.drop_left]

/-- Characters are what they are whatever stands behind them. -/
theorem characters_encoded (cs : List Char) (bytes : List UInt8) :
    characters (encoded cs ++ bytes) = (cs ++ (characters bytes).1, (characters bytes).2) := by
  induction cs with
  | nil => rfl
  | cons c cs ih => rw [encoded_cons, List.append_assoc, characters_append, ih, List.cons_append]

theorem characters_none {b : UInt8} {rest : List UInt8} (h : firstChar? (b :: rest) = none) :
    characters (b :: rest) = ((b :: rest).map standIn, rest.length + 1) := by
  rw [characters, h]

/-- Of the characters of some bytes the last ones stand in for what is none. -/
theorem characters_bad_le (bytes : List UInt8) :
    (characters bytes).2 ≤ (characters bytes).1.length := by
  fun_induction characters bytes with
  | case1 => exact Nat.le_refl 0
  | case2 b rest hfirst => simp only [List.length_map, List.length_cons, Nat.le_refl]
  | case3 b rest c hfirst behind ih =>
      rw [List.length_cons]
      exact Nat.le_succ_of_le ih

/-! ## A byte of its own -/

theorem utf8EncodeChar_ascii {c : Char} (h : c.toNat < 128) :
    utf8EncodeChar c = [UInt8.ofNat c.toNat] := by
  unfold utf8EncodeChar
  exact if_pos (Nat.le_of_lt_succ h)

theorem le_utf8EncodeChar {c : Char} (h : ¬c.toNat < 128) : ∀ b ∈ utf8EncodeChar c, 128 ≤ b := by
  have hbyte : ∀ n : Nat, 128 ≤ n → n < 256 → 128 ≤ UInt8.ofNat n := by
    intro n hlow hhigh
    rw [UInt8.le_iff_toNat_le, UInt8.toNat_ofNat_of_lt' hhigh]
    exact hlow
  have hlarge : ¬c.val.toNat ≤ 127 := mt Nat.lt_succ_of_le h
  unfold utf8EncodeChar
  dsimp only
  rw [if_neg hlarge]
  split
  · simp only [List.forall_mem_cons, List.not_mem_nil, false_imp_iff, implies_true, and_true]
    refine ⟨hbyte _ ?_ ?_, hbyte _ ?_ ?_⟩ <;> omega
  · split
    · simp only [List.forall_mem_cons, List.not_mem_nil, false_imp_iff, implies_true, and_true]
      refine ⟨hbyte _ ?_ ?_, hbyte _ ?_ ?_, hbyte _ ?_ ?_⟩ <;> omega
    · simp only [List.forall_mem_cons, List.not_mem_nil, false_imp_iff, implies_true, and_true]
      refine ⟨hbyte _ ?_ ?_, hbyte _ ?_ ?_, hbyte _ ?_ ?_, hbyte _ ?_ ?_⟩ <;> omega

theorem standIn_of_le {b : UInt8} (h : 128 ≤ b) : standIn b = '\x7f' :=
  if_neg (UInt8.not_lt.2 h)

/-- A character with a byte of its own stands only where this byte does. -/
theorem head_characters (b : UInt8) (rest : List UInt8) :
    ∃ c cs, (characters (b :: rest)).1 = c :: cs ∧
      (c.toNat < 127 → b = UInt8.ofNat c.toNat) := by
  cases hfirst : firstChar? (b :: rest) with
  | none =>
      refine ⟨standIn b, rest.map standIn, by rw [characters_none hfirst, List.map_cons], ?_⟩
      intro hc
      unfold standIn at hc ⊢
      split
      · next h =>
          have hsame : ∀ n < 128, (Char.ofNat n).toNat = n := by decide
          rw [hsame _ (UInt8.lt_iff_toNat_lt.1 h), UInt8.ofNat_toNat]
      · next h =>
          rw [if_neg h] at hc
          exact absurd hc (by decide)
  | some c =>
      obtain ⟨more, hmore⟩ := exists_of_firstChar? hfirst
      refine ⟨c, (characters more).1, by rw [hmore, characters_append], fun hc => ?_⟩
      rw [utf8EncodeChar_ascii (by omega), List.singleton_append] at hmore
      exact (List.cons.inj hmore).1

/-! ## A text that is cut -/

/-- Bytes that begin a character and do not end it are the bytes of none. -/
theorem characters_part {c : Char} {part more : List UInt8} (h : utf8EncodeChar c = part ++ more)
    (hpart : part ≠ []) (hmore : more ≠ []) :
    (characters part).1 = List.replicate part.length '\x7f' := by
  obtain ⟨b, rest, rfl⟩ := List.exists_cons_of_ne_nil hpart
  have hlarge : ¬c.toNat < 128 := by
    intro hsmall
    have hlength := congrArg List.length (utf8EncodeChar_ascii hsmall)
    rw [h, List.length_append, List.length_cons, List.length_singleton] at hlength
    have := List.length_pos_iff.2 hmore
    omega
  have hnone : firstChar? (b :: rest) = none := by
    cases hfirst : firstChar? (b :: rest) with
    | none => rfl
    | some d =>
        obtain ⟨behind, hbehind⟩ := exists_of_firstChar? hfirst
        have hsame : d = c := by
          have hd := firstChar?_append d (behind ++ more)
          rw [← List.append_assoc, ← hbehind, ← h, ← List.append_nil (utf8EncodeChar c),
            firstChar?_append] at hd
          exact (Option.some.inj hd).symm
        subst hsame
        have hlength := congrArg List.length h
        rw [hbehind, List.length_append, List.length_append] at hlength
        have := List.length_pos_iff.2 hmore
        omega
  rw [characters_none hnone, List.eq_replicate_iff, List.length_map]
  refine ⟨rfl, fun d hd => ?_⟩
  obtain ⟨b', hb', rfl⟩ := List.mem_map.1 hd
  exact standIn_of_le (le_utf8EncodeChar hlarge b' (h ▸ List.mem_append_left more hb'))

/-- Of a text that is cut some characters are left, and nothing that has a meaning. -/
theorem characters_take {cs : List Char} {k : Nat} (hk : k < (encoded cs).length) :
    ∃ front back n, cs = front ++ back ∧ back ≠ [] ∧
      (characters ((encoded cs).take k)).1 = front ++ List.replicate n '\x7f' := by
  induction cs generalizing k with
  | nil => cases hk
  | cons c cs ih =>
      rw [encoded_cons] at hk ⊢
      by_cases hwhole : (utf8EncodeChar c).length ≤ k
      · rw [List.length_append] at hk
        obtain ⟨front, back, n, rfl, hback, htake⟩ :=
          ih (k := k - (utf8EncodeChar c).length) (by omega)
        refine ⟨c :: front, back, n, rfl, hback, ?_⟩
        rw [List.take_append, List.take_of_length_le hwhole, characters_append, htake,
          List.cons_append]
      · refine ⟨[], c :: cs, k, rfl, List.cons_ne_nil c cs, ?_⟩
        rw [List.take_append_of_le_length (by omega), List.nil_append]
        cases k with
        | zero => rw [List.take_zero, characters_nil, List.replicate_zero]
        | succ k =>
            have hsplit := (List.take_append_drop (k + 1) (utf8EncodeChar c)).symm
            have hlength : ((utf8EncodeChar c).take (k + 1)).length = k + 1 :=
              List.length_take_of_le (by omega)
            rw [characters_part hsplit, hlength]
            · exact List.ne_nil_of_length_pos (by omega)
            · exact List.ne_nil_of_length_pos (by rw [List.length_drop]; omega)

end RequestLog.Json
