import RequestLog.Text.Search

/-!
# What a search finds

Where a text first occurs in another, said without a search: `FirstPlace`. Whether it
occurs and whether it stands at the front can both be read off that place, so stores
that search and stores that test for a prefix can be held against the same two
questions, and against `occurs` and `startsWith`.
-/

namespace RequestLog.Text

/-- The one-based place of the first occurrence of a needle, zero when there is none. -/
inductive FirstPlace (needle text : List Char) : Nat → Prop
  | found {before after : List Char} : text = before ++ needle ++ after →
      (∀ earlier later, text = earlier ++ needle ++ later →
        before.length ≤ earlier.length) →
      FirstPlace needle text (before.length + 1)
  | absent : ¬needle <:+: text → FirstPlace needle text 0

namespace FirstPlace

variable {needle text : List Char} {k : Nat}

theorem pos_iff (h : FirstPlace needle text k) : 0 < k ↔ needle <:+: text := by
  cases h with
  | found htext _ => exact ⟨fun _ => ⟨_, _, htext.symm⟩, fun _ => Nat.succ_pos _⟩
  | absent hnot => exact ⟨fun hk => absurd hk (Nat.lt_irrefl 0), fun h => absurd h hnot⟩

end FirstPlace

theorem position?_of_starts {needle text : List Char} (h : needle <+: text) :
    position? needle text = some 1 := by
  cases text with
  | nil =>
      rw [position?, List.prefix_nil.1 h]
      rfl
  | cons c rest => rw [position?, if_pos (List.isPrefixOf_iff_prefix.2 h)]

theorem position?_cons_of_not_starts {needle rest : List Char} {c : Char}
    (h : ¬needle <+: c :: rest) :
    position? needle (c :: rest) = (position? needle rest).map (· + 1) := by
  rw [position?, if_neg fun hp => h (List.isPrefixOf_iff_prefix.1 hp)]

theorem not_infix_of_position? {needle text : List Char}
    (h : position? needle text = none) : ¬needle <:+: text := by
  have hprefix : ¬needle <+: text := by
    intro hp
    rw [position?_of_starts hp] at h
    cases h
  induction text with
  | nil =>
      intro hinfix
      rw [List.infix_nil.1 hinfix] at hprefix
      exact hprefix (List.prefix_refl [])
  | cons c rest ih =>
      rw [position?_cons_of_not_starts hprefix, Option.map_eq_none_iff] at h
      have hrest : ¬needle <+: rest := by
        intro hp
        rw [position?_of_starts hp] at h
        cases h
      exact fun hinfix => (List.infix_cons_iff.1 hinfix).elim hprefix (ih h hrest)

/-- The search goes from place to place and stops at the first that fits. -/
theorem first_of_position? {needle text : List Char} {k : Nat}
    (h : position? needle text = some k) :
    ∃ before after, text = before ++ needle ++ after ∧ k = before.length + 1 ∧
      ∀ earlier later, text = earlier ++ needle ++ later →
        before.length ≤ earlier.length := by
  induction text generalizing k with
  | nil =>
      have hneedle : needle = [] := by
        rw [position?] at h
        split at h
        · next hempty => exact List.isEmpty_iff.1 hempty
        · cases h
      subst hneedle
      cases h
      exact ⟨[], [], rfl, rfl, fun _ _ _ => Nat.zero_le _⟩
  | cons c rest ih =>
      by_cases hprefix : needle <+: c :: rest
      · rw [position?_of_starts hprefix] at h
        cases h
        obtain ⟨after, hafter⟩ := hprefix
        exact ⟨[], after, hafter.symm, rfl, fun _ _ _ => Nat.zero_le _⟩
      · rw [position?_cons_of_not_starts hprefix] at h
        obtain ⟨m, hm, rfl⟩ := Option.map_eq_some_iff.1 h
        obtain ⟨before, after, hrest, rfl, hfirst⟩ := ih hm
        refine ⟨c :: before, after, by rw [hrest]; rfl, rfl, fun earlier later heq => ?_⟩
        cases earlier with
        | nil => exact absurd ⟨later, heq.symm⟩ hprefix
        | cons d earlier =>
            have hle := hfirst earlier later (List.cons.inj heq).2
            rw [List.length_cons, List.length_cons]
            omega

theorem firstPlace_position? (needle text : List Char) :
    FirstPlace needle text ((position? needle text).getD 0) := by
  cases h : position? needle text with
  | none => exact .absent (not_infix_of_position? h)
  | some k =>
      obtain ⟨before, after, htext, rfl, hfirst⟩ := first_of_position? h
      exact .found htext hfirst

theorem occurs_iff {needle text : String} :
    occurs needle text = true ↔ needle.toList <:+: text.toList := by
  have hplace := firstPlace_position? needle.toList text.toList
  rw [occurs, ← hplace.pos_iff]
  cases h : position? needle.toList text.toList with
  | none => simp
  | some k =>
      obtain ⟨before, -, -, rfl, -⟩ := first_of_position? h
      simp

theorem startsWith_iff {start text : String} :
    startsWith start text = true ↔ start.toList <+: text.toList :=
  List.isPrefixOf_iff_prefix

theorem exists_append_of_startsWith {start text : String} (h : startsWith start text = true) :
    ∃ rest, text = start ++ rest := by
  obtain ⟨rest, hrest⟩ := startsWith_iff.1 h
  refine ⟨String.ofList rest, String.toList_inj.1 ?_⟩
  rw [String.toList_append, String.toList_ofList, hrest]

theorem after?_append (start rest : List Char) : after? start (start ++ rest) = some rest := by
  rw [after?, if_pos (List.isPrefixOf_iff_prefix.2 (List.prefix_append ..)), List.drop_left]

/-- A text without some character is never found across one. -/
theorem infix_append_cons_iff {needle front back : List Char} {c : Char} (hc : c ∉ needle) :
    needle <:+: front ++ c :: back ↔ needle <:+: front ∨ needle <:+: back := by
  constructor
  · intro h
    rcases List.infix_append_iff.1 h with h | h | ⟨start, stop, rfl, hstart, hstop⟩
    · exact .inl h
    · rcases List.infix_cons_iff.1 h with h | h
      · cases needle with
        | nil => exact .inr List.nil_infix
        | cons d rest =>
            obtain ⟨rfl, -⟩ := List.cons_prefix_cons.1 h
            exact absurd (List.mem_cons_self ..) hc
      · exact .inr h
    · cases stop with
      | nil => exact .inl (by simpa using hstart.isInfix)
      | cons d rest =>
          obtain ⟨rfl, -⟩ := List.cons_prefix_cons.1 hstop
          exact absurd (List.mem_append_right _ (List.mem_cons_self ..)) hc
  · rintro (h | h)
    · exact h.trans (List.prefix_append ..).isInfix
    · exact (List.infix_cons h).trans (List.suffix_append ..).isInfix

/-! ## Parts between separators -/

theorem splitAt_of_not_mem {sep : Char} {cs : List Char} (h : sep ∉ cs) :
    splitAt sep cs = [cs] := by
  induction cs with
  | nil => rfl
  | cons c rest ih =>
      rw [List.mem_cons, not_or] at h
      rw [splitAt, if_neg (Ne.symm h.1), ih h.2]

theorem splitAt_ne_nil (sep : Char) (cs : List Char) : splitAt sep cs ≠ [] := by
  cases cs with
  | nil => exact List.cons_ne_nil [] []
  | cons c rest =>
      rw [splitAt]
      split
      · exact List.cons_ne_nil _ _
      · split <;> exact List.cons_ne_nil _ _

/-- A separator parts a text in two, each of which has its own parts. -/
theorem splitAt_append_cons (sep : Char) (cs rest : List Char) :
    splitAt sep (cs ++ sep :: rest) = splitAt sep cs ++ splitAt sep rest := by
  induction cs with
  | nil => exact if_pos rfl
  | cons c cs ih =>
      rw [List.cons_append, splitAt, splitAt, ih]
      split
      · rw [List.cons_append]
      · cases h : splitAt sep cs with
        | nil => exact absurd h (splitAt_ne_nil sep cs)
        | cons part parts => rfl

theorem splitAt_append {sep : Char} {cs : List Char} (h : sep ∉ cs) (rest : List Char) :
    splitAt sep (cs ++ sep :: rest) = cs :: splitAt sep rest := by
  rw [splitAt_append_cons, splitAt_of_not_mem h, List.singleton_append]

end RequestLog.Text
