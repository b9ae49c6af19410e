import RequestLog.Json.Print
import RequestLog.Json.Token

/-!
# What stands between two quotes

A text is written as its characters and escapes. `SpelledText` says which characters stand
for which content, and `scanText` finds a content exactly where they do. Half a surrogate
pair is never content; so while the machine waits for the other half it has only one way
to end well, and what is proved about a draft depends on whether it waits (`Draft.Ends`).

A text that is printed is spelled too, with an escape where a character cannot stand as it is.
-/

namespace RequestLog.Json

/-- A character that a text holds as it is. -/
def isPlain (c : Char) : Bool := c ≠ '"' && c ≠ '\\' && 0x20 ≤ c.toNat

/-- Content, and the characters that stand for it. -/
inductive SpelledText : List Char → List Char → Prop where
  | nil : SpelledText [] []
  | plain {c : Char} {s cs : List Char} : isPlain c = true → SpelledText s cs →
      SpelledText (c :: s) (c :: cs)
  | escape {c e : Char} {s cs : List Char} : escape? c = some e → SpelledText s cs →
      SpelledText (e :: s) ('\\' :: c :: cs)
  | unit {a b c d : Char} {n : Nat} {s cs : List Char} : hex4? a b c d = some n →
      isLeading n = false → isTrailing n = false → SpelledText s cs →
      SpelledText (Char.ofNat n :: s) ('\\' :: 'u' :: a :: b :: c :: d :: cs)
  | pair {a b c d a' b' c' d' : Char} {hi lo : Nat} {s cs : List Char} :
      hex4? a b c d = some hi → isLeading hi = true →
      hex4? a' b' c' d' = some lo → isTrailing lo = true → SpelledText s cs →
      SpelledText (joined hi lo :: s)
        ('\\' :: 'u' :: a :: b :: c :: d :: '\\' :: 'u' :: a' :: b' :: c' :: d' :: cs)

/-! ## What is spelled is scanned -/

theorem not_trailing_of_leading {n : Nat} (h : isLeading n = true) : isTrailing n = false := by
  unfold isLeading isTrailing at *
  simp only [Bool.and_eq_true, decide_eq_true_eq] at h
  simp only [Bool.and_eq_false_iff, decide_eq_false_iff_not]
  omega

theorem scanText_plain {c : Char} (hc : isPlain c = true) (cs : List Char) (t : Draft) :
    scanText (c :: cs) t = scanText cs (t.push c) := by
  simp only [isPlain, Bool.and_eq_true, decide_eq_true_eq, decide_not, Bool.not_eq_true',
    decide_eq_false_iff_not] at hc
  obtain ⟨⟨hquote, hslash⟩, hcontrol⟩ := hc
  rw [scanText]
  · rw [if_neg (Nat.not_lt.2 hcontrol)]
  all_goals grind

theorem scanText_unit {a b c d : Char} {n : Nat} (h : hex4? a b c d = some n)
    (cs : List Char) (t : Draft) :
    scanText ('\\' :: 'u' :: a :: b :: c :: d :: cs) t = scanText cs (t.unit n) := by
  rw [scanText, h]

theorem scanText_escape {c e : Char} (h : escape? c = some e) (cs : List Char) (t : Draft) :
    scanText ('\\' :: c :: cs) t = scanText cs (t.push e) := by
  have hc : c ≠ 'u' := by
    rintro rfl
    cases h
  rw [scanText]
  · rw [h]
  all_goals grind

/-- Scanning goes through all that is spelled and ends at the quote behind it. -/
theorem scanText_spelled {s cs : List Char} (h : SpelledText s cs) (done rest : List Char) :
    scanText (cs ++ '"' :: rest) ⟨.ok done, none⟩ =
      .closed (.ok (String.ofList (done.reverse ++ s))) rest := by
  induction h generalizing done with
  | nil =>
      rw [List.nil_append, scanText, List.append_nil]
      rfl
  | @plain c s cs hc _ ih =>
      rw [List.cons_append, scanText_plain hc]
      refine (ih (c :: done)).trans ?_
      rw [List.reverse_cons, List.append_assoc, List.singleton_append]
  | @escape c e s cs hc _ ih =>
      rw [List.cons_append, List.cons_append, scanText_escape hc]
      refine (ih (e :: done)).trans ?_
      rw [List.reverse_cons, List.append_assoc, List.singleton_append]
  | @unit a b c d n s cs hn hlead htrail _ ih =>
      simp only [List.cons_append]
      rw [scanText_unit hn]
      have hunit : Draft.unit n ⟨.ok done, none⟩ = ⟨.ok (Char.ofNat n :: done), none⟩ := by
        simp only [Draft.unit, hlead, htrail]
        rfl
      rw [hunit, ih, List.reverse_cons, List.append_assoc, List.singleton_append]
  | @pair a b c d a' b' c' d' hi lo s cs hhi hlead hlo htrail _ ih =>
      simp only [List.cons_append]
      rw [scanText_unit hhi, scanText_unit hlo]
      have hunit : (Draft.unit hi ⟨.ok done, none⟩).unit lo =
          ⟨.ok (joined hi lo :: done), none⟩ := by
        simp only [Draft.unit, hlead, not_trailing_of_leading hlead, htrail]
        rfl
      rw [hunit, ih, List.reverse_cons, List.append_assoc, List.singleton_append]

/-! ## What is scanned was spelled -/

/-- What a draft needs to become a text: nothing can mend a fault, and a surrogate that is
waited for has to come first. -/
def Draft.Ends (d : Draft) (cs : List Char) (s : String) : Prop :=
  match d.content, d.leading with
  | .error _, _ => False
  | .ok done, none => ∃ more, SpelledText more cs ∧ s = String.ofList (done.reverse ++ more)
  | .ok done, some hi =>
      ∃ a b c d lo more rest, hex4? a b c d = some lo ∧ isTrailing lo = true ∧
        SpelledText more rest ∧ cs = '\\' :: 'u' :: a :: b :: c :: d :: rest ∧
        s = String.ofList (done.reverse ++ joined hi lo :: more)

theorem Draft.not_ends_error {f : Fault} {leading : Option Nat} {cs : List Char} {s : String} :
    ¬ Draft.Ends ⟨.error f, leading⟩ cs s := id

theorem Draft.not_ends_spoil {f : Fault} {d : Draft} {cs : List Char} {s : String} :
    ¬ (d.spoil f).Ends cs s := by
  unfold Draft.spoil
  cases d.content <;> exact Draft.not_ends_error

/-- A draft that took a character was waiting for nothing. -/
theorem Draft.Ends.of_push {d : Draft} {c : Char} {cs : List Char} {s : String}
    (h : (d.push c).Ends cs s) :
    ∃ done more, d = ⟨.ok done, none⟩ ∧ SpelledText more cs ∧
      s = String.ofList (done.reverse ++ c :: more) := by
  rcases d with ⟨_ | done, _ | hi⟩
  · exact absurd h Draft.not_ends_error
  · exact absurd h Draft.not_ends_error
  · obtain ⟨more, hmore, rfl⟩ := h
    refine ⟨done, more, rfl, hmore, ?_⟩
    rw [List.reverse_cons, List.append_assoc, List.singleton_append]
  · exact absurd h Draft.not_ends_error

/-- A code unit completes the pair that was begun, begins one, or is a character. -/
theorem Draft.Ends.of_unit {d : Draft} {a b c e : Char} {n : Nat} {cs : List Char} {s : String}
    (hn : hex4? a b c e = some n) (h : (d.unit n).Ends cs s) :
    d.Ends ('\\' :: 'u' :: a :: b :: c :: e :: cs) s := by
  match d with
  | ⟨content, some hi⟩ =>
      simp only [Draft.unit] at h
      split at h
      · next htrail =>
          cases content with
          | error f => exact absurd h Draft.not_ends_error
          | ok done =>
              obtain ⟨more, hmore, rfl⟩ := h
              refine ⟨a, b, c, e, n, more, cs, hn, htrail, hmore, rfl, ?_⟩
              rw [List.reverse_cons, List.append_assoc, List.singleton_append]
      · exact absurd h Draft.not_ends_spoil
  | ⟨content, none⟩ =>
      simp only [Draft.unit] at h
      split at h
      · exact absurd h Draft.not_ends_spoil
      · next htrail =>
          split at h
          · next hlead =>
              cases content with
              | error f => exact absurd h Draft.not_ends_error
              | ok done =>
                  obtain ⟨a', b', c', d', lo, more, rest, hlo, hlotrail, hmore, rfl, rfl⟩ := h
                  exact ⟨_, .pair hn hlead hlo hlotrail hmore, rfl⟩
          · next hlead =>
              obtain ⟨done, more, hd, hmore, rfl⟩ := h.of_push
              cases hd
              exact ⟨_, .unit hn (Bool.eq_false_iff.2 hlead) (Bool.eq_false_iff.2 htrail) hmore,
                rfl⟩

/-- A scan that ended well went over what spells the content. -/
theorem ends_of_scanText {cs rest : List Char} {t : Draft} {s : String}
    (h : scanText cs t = .closed (.ok s) rest) :
    ∃ w, cs = w ++ '"' :: rest ∧ t.Ends w s := by
  fun_induction scanText cs t with
  | case1 t => exact absurd h (Draft.stop_ne_closed _ _ _ _)
  | case2 more t =>
      unfold Draft.close at h
      rcases t with ⟨_ | done, _ | hi⟩
      · cases h
      · cases h
      · cases h
        exact ⟨[], rfl, [], .nil, by rw [List.append_nil]⟩
      · cases h
  | case3 t a b c d more n hn ih =>
      obtain ⟨w, rfl, hends⟩ := ih h
      exact ⟨_, rfl, hends.of_unit hn⟩
  | case4 => exact absurd h (Draft.stop_ne_closed _ _ _ _)
  | case5 => exact absurd h (Draft.stop_ne_closed _ _ _ _)
  | case6 t c more _ _ e he ih =>
      obtain ⟨w, rfl, hends⟩ := ih h
      obtain ⟨done, text, rfl, htext, rfl⟩ := hends.of_push
      exact ⟨_, rfl, _, .escape he htext, rfl⟩
  | case7 => exact absurd h (Draft.stop_ne_closed _ _ _ _)
  | case8 => exact absurd h (Draft.stop_ne_closed _ _ _ _)
  | case9 => exact absurd h (Draft.stop_ne_closed _ _ _ _)
  | case10 c more t hquote _ _ hescape hlast hcontrol ih =>
      obtain ⟨w, rfl, hends⟩ := ih h
      obtain ⟨done, text, rfl, htext, rfl⟩ := hends.of_push
      have hslash : c ≠ '\\' := by
        cases hrest : w ++ '"' :: rest with
        | nil => exact fun hc => hlast hc hrest
        | cons d tail => exact fun hc => hescape d tail hc hrest
      have hplain : isPlain c = true := by
        simp only [isPlain, Bool.and_eq_true, decide_eq_true_eq]
        exact ⟨⟨hquote, hslash⟩, Nat.not_lt.1 hcontrol⟩
      exact ⟨c :: w, rfl, _, .plain hplain htext, rfl⟩

/-- The content of a text between quotes. -/
theorem spelledText_of_scanText {cs rest : List Char} {s : String}
    (h : scanText cs .empty = .closed (.ok s) rest) :
    ∃ w, cs = w ++ '"' :: rest ∧ SpelledText s.toList w := by
  obtain ⟨w, rfl, more, hmore, rfl⟩ := ends_of_scanText h
  refine ⟨w, rfl, ?_⟩
  rwa [String.toList_ofList]

/-! ## What is printed is spelled -/

theorem spelledText_escapedChar (c : Char) {s cs : List Char} (h : SpelledText s cs) :
    SpelledText (c :: s) (escapedChar c ++ cs) := by
  unfold escapedChar
  iterate 7
    split
    · next hc => subst hc; exact .escape rfl h
  split
  · next hcontrol =>
      have hunit : ∀ n < 0x20,
          hex4? '0' '0' (Nat.digitChar (n / 16)) (Nat.digitChar (n % 16)) = some n ∧
            isLeading n = false ∧ isTrailing n = false := by decide
      obtain ⟨hhex, hleading, htrailing⟩ := hunit c.toNat hcontrol
      have hspelled := SpelledText.unit hhex hleading htrailing h
      rwa [Char.ofNat_toNat] at hspelled
  · next hquote hslash _ _ _ _ _ hcontrol =>
      refine .plain ?_ h
      simp only [isPlain, Bool.and_eq_true, decide_eq_true_eq]
      exact ⟨⟨hquote, hslash⟩, Nat.not_lt.1 hcontrol⟩

theorem spelledText_escaped (s : List Char) : SpelledText s (s.flatMap escapedChar) := by
  induction s with
  | nil => exact .nil
  | cons c rest ih => exact spelledText_escapedChar c ih

end RequestLog.Json
