import Mathlib.Data.List.Chain
import RequestLog.Json.Token
import RequestLog.Proofs.Json.Number
import RequestLog.Proofs.Json.Text

/-!
# Tokens and the texts that they are written as

A text spells tokens when they stand in it in this order, with blanks wherever one likes
(`Spells`). Cutting a text gives the tokens that it spells, and no others.

Two tokens may touch. Only behind a number that could be mistaken, so cutting is proved to
find a list of tokens in which no two words or numbers stand side by side (`Apart`); every
JSON value is such a list.
-/

namespace RequestLog.Json

/-- A token, and the characters it is written as. -/
inductive Word : Token → List Char → Prop where
  | punct {p : Punct} {c : Char} : punct? c = some p → Word (.punct p) [c]
  | null : Word .null ['n', 'u', 'l', 'l']
  | true : Word (.bool true) ['t', 'r', 'u', 'e']
  | false : Word (.bool false) ['f', 'a', 'l', 's', 'e']
  | number {l : Literal} {n : Number} {cs : List Char} : l.Spelled cs → l.value = .ok n →
      Word (.number (.ok n)) cs
  | text {s : String} {cs : List Char} : SpelledText s.toList cs →
      Word (.text (.ok s)) ('"' :: (cs ++ ['"']))

inductive Spells : List Token → List Char → Prop where
  | nil : Spells [] []
  | space {ts : List Token} {c : Char} {cs : List Char} : isSpace c = true → Spells ts cs →
      Spells ts (c :: cs)
  | word {t : Token} {ts : List Token} {w cs : List Char} : Word t w → Spells ts cs →
      Spells (t :: ts) (w ++ cs)

/-- An integer may be written as its digits, zero as one, without a fraction or an exponent. -/
theorem word_int {i : Int} (h : Decimal.fitsSigned 64 i = true) :
    Word (.number (.ok (.int i))) (Decimal.intText i).toList :=
  .number (Literal.ofInt_spelled i) (Literal.value_ofInt h)

/-- A token in which there is no fault. -/
def Token.Intact : Token → Prop
  | .punct _ | .null | .bool _ => True
  | .number n => ∃ i, n = .ok i
  | .text s => ∃ x, s = .ok x
  | .stray | .broken _ _ => False

/-! ## The next token -/

theorem scanWord_sound {word cs rest : List Char} (h : scanWord word cs = .ok rest) :
    cs = word ++ rest := by
  fun_induction scanWord word cs with
  | case1 cs => exact (Except.ok.inj h)
  | case2 => cases h
  | case3 w ws rest' ih => rw [ih h, List.cons_append]
  | case4 => cases h

theorem word_of_wordToken {t u : Token} {start : Start} {c : Char} {word rest more : List Char}
    (hword : Word t (c :: word)) (h : wordToken t start word rest = (u, more))
    (hu : u.Intact) : ∃ w, Word u w ∧ c :: rest = w ++ more := by
  unfold wordToken at h
  split at h
  · next hscan =>
      cases h
      exact ⟨_, hword, by rw [scanWord_sound hscan, List.cons_append]⟩
  · cases h
    exact absurd hu id

theorem word_of_nextToken {c : Char} {rest more : List Char} {t : Token}
    (h : nextToken c rest = (t, more)) (ht : t.Intact) :
    ∃ w, Word t w ∧ c :: rest = w ++ more := by
  unfold nextToken at h
  split at h
  · next hp =>
      cases h
      exact ⟨_, .punct hp, rfl⟩
  · split at h
    · next hquote =>
        subst hquote
        split at h
        · next hscan =>
            cases h
            obtain ⟨s, rfl⟩ := ht
            obtain ⟨w, rfl, hs⟩ := spelledText_of_scanText hscan
            exact ⟨_, .text hs, by simp⟩
        · cases h
          exact absurd ht id
    · split at h
      · next hc =>
          subst hc
          exact word_of_wordToken .null h ht
      · split at h
        · next hc =>
            subst hc
            exact word_of_wordToken .true h ht
        · split at h
          · next hc =>
              subst hc
              exact word_of_wordToken .false h ht
          · split at h
            · split at h
              · next hscan =>
                  cases h
                  obtain ⟨n, hn⟩ := ht
                  obtain ⟨w, hw, hcs⟩ := spelled_of_scanNumber hscan
                  rw [hn]
                  exact ⟨w, .number hw hn, hcs⟩
              · cases h
                exact absurd ht id
            · cases h
              exact absurd ht id

theorem nextToken_digit {c : Char} {rest more : List Char} {l : Literal}
    (hc : c = '-' ∨ c.isDigit = true) (h : scanNumber (c :: rest) = .ok (l, more)) :
    isSpace c = false ∧ nextToken c rest = (.number l.value, more) := by
  have hclass : punct? c = none ∧ isSpace c = false ∧ c ≠ '"' ∧ c ≠ 'n' ∧ c ≠ 't' ∧ c ≠ 'f' := by
    obtain rfl | hc := hc
    · decide
    · refine ⟨?_, ?_, ?_⟩
      · unfold punct?
        split <;> first | rfl | exact absurd hc (by decide)
      · cases hspace : isSpace c with
        | false => rfl
        | true =>
            simp only [isSpace, Bool.or_eq_true, decide_eq_true_eq] at hspace
            obtain ((rfl | rfl) | rfl) | rfl := hspace <;> exact absurd hc (by decide)
      · refine ⟨?_, ?_, ?_, ?_⟩ <;> (rintro rfl; exact absurd hc (by decide))
  obtain ⟨hpunct, hspace, hquote, hn, ht, hf⟩ := hclass
  have hnumber : (c = '-' || c.isDigit) = true := by
    simpa only [Bool.or_eq_true, decide_eq_true_eq] using hc
  refine ⟨hspace, ?_⟩
  simp only [nextToken, hpunct, if_neg hquote, if_neg hn, if_neg ht, if_neg hf, if_pos hnumber, h]

theorem nextToken_quote {s : Except Fault String} {rest more : List Char}
    (h : scanText rest .empty = .closed s more) : nextToken '"' rest = (.text s, more) := by
  have hpunct : punct? '"' = none := rfl
  simp only [nextToken, hpunct, if_true, h]

/-- A word is the next token, if it is no number or nothing behind it is more of the number. -/
theorem nextToken_word {t : Token} {w more : List Char} (h : Word t w)
    (hstop : (∃ n, t = .number n) → Stops more) :
    ∃ c rest, w = c :: rest ∧ isSpace c = false ∧ nextToken c (rest ++ more) = (t, more) := by
  cases h with
  | @punct p c hp =>
      refine ⟨c, [], rfl, ?_, ?_⟩
      · cases hspace : isSpace c with
        | false => rfl
        | true =>
            simp only [isSpace, Bool.or_eq_true, decide_eq_true_eq] at hspace
            obtain ((rfl | rfl) | rfl) | rfl := hspace <;> cases hp
      · simp only [nextToken, hp, List.nil_append]
  | null => exact ⟨_, _, rfl, rfl, rfl⟩
  | true => exact ⟨_, _, rfl, rfl, rfl⟩
  | false => exact ⟨_, _, rfl, rfl, rfl⟩
  | @number l n cs hl hn =>
      have hscan := scanNumber_spelled hl (hstop ⟨_, rfl⟩)
      obtain ⟨c, rest, rfl, hc⟩ := hl.head
      rw [List.cons_append] at hscan
      obtain ⟨hspace, hnext⟩ := nextToken_digit hc hscan
      exact ⟨c, rest, rfl, hspace, by rw [hnext, hn]⟩
  | @text s cs hs =>
      refine ⟨'"', _, rfl, rfl, ?_⟩
      have hscan := scanText_spelled hs [] more
      rw [List.reverse_nil, List.nil_append, String.ofList_toList] at hscan
      rw [List.append_assoc, List.singleton_append]
      exact nextToken_quote hscan

/-! ## All tokens -/

theorem tokensAfter_nil {done : List Token} : tokensAfter done [] = done.reverse := by
  rw [tokensAfter]

theorem tokensAfter_cons {done ts : List Token} {c : Char} {rest more : List Char}
    {t : Token} (hspace : isSpace c = false) (hnext : nextToken c rest = (t, more))
    (hmore : tokensAfter (t :: done) more = ts) : tokensAfter done (c :: rest) = ts := by
  rw [tokensAfter, hspace, hnext]
  exact hmore

theorem tokensAfter_space {done : List Token} {c : Char} {rest : List Char}
    (hspace : isSpace c = true) : tokensAfter done (c :: rest) = tokensAfter done rest := by
  rw [tokensAfter, if_pos hspace]

/-- What was cut before is not looked at again. -/
theorem tokensAfter_append (done before : List Token) (cs : List Char) :
    tokensAfter (done ++ before) cs = before.reverse ++ tokensAfter done cs := by
  fun_induction tokensAfter done cs with
  | case1 done => rw [tokensAfter_nil, List.reverse_append]
  | case2 done c rest hspace ih => rw [tokensAfter_space hspace, ih]
  | case3 done c rest hspace ih =>
      exact tokensAfter_cons (Bool.eq_false_iff.2 hspace) rfl ih

theorem tokens_space {c : Char} {rest : List Char} (hspace : isSpace c = true) :
    tokens (c :: rest) = tokens rest := tokensAfter_space hspace

theorem tokens_cons {c : Char} {rest more : List Char} {t : Token}
    (hspace : isSpace c = false) (hnext : nextToken c rest = (t, more)) :
    tokens (c :: rest) = t :: tokens more :=
  tokensAfter_cons hspace hnext (tokensAfter_append [] [t] more)

/-- A text spells its tokens, when none of them has a fault. -/
theorem spells_tokens {cs : List Char} (h : ∀ t ∈ tokens cs, t.Intact) :
    Spells (tokens cs) cs := by
  induction hlength : cs.length using Nat.strongRecOn generalizing cs with
  | _ n ih =>
      cases cs with
      | nil =>
          rw [tokens, tokensAfter_nil]
          exact .nil
      | cons c rest =>
          subst hlength
          cases hspace : isSpace c with
          | true =>
              rw [tokens_space hspace] at h ⊢
              exact .space hspace (ih _ (Nat.lt_succ_self _) h rfl)
          | false =>
              have hmore := nextToken_length c rest
              cases hnext : nextToken c rest with
              | mk t more =>
                  rw [hnext] at hmore
                  rw [tokens_cons hspace hnext] at h ⊢
                  obtain ⟨w, hw, hcs⟩ := word_of_nextToken hnext (h t List.mem_cons_self)
                  rw [hcs]
                  exact .word hw (ih _ (Nat.lt_succ_of_le hmore)
                    (fun u hu => h u (List.mem_cons_of_mem _ hu)) rfl)

/-- Of two tokens side by side one is a mark. -/
def Apart (ts : List Token) : Prop :=
  ts.IsChain fun t u => (∃ p, t = .punct p) ∨ ∃ p, u = .punct p

/-- Blanks and marks are no part of a number. -/
theorem stops_of_spells {ts : List Token} {cs : List Char} (h : Spells ts cs)
    (hmark : ∀ t, ts.head? = some t → ∃ p, t = .punct p) : Stops cs := by
  intro c hc
  cases h with
  | nil => cases hc
  | space hspace _ =>
      obtain rfl := Option.some.inj hc
      simp only [isSpace, Bool.or_eq_true, decide_eq_true_eq] at hspace
      obtain ((rfl | rfl) | rfl) | rfl := hspace <;> rfl
  | word hw _ =>
      obtain ⟨p, rfl⟩ := hmark _ rfl
      cases hw with
      | punct hp =>
          obtain rfl := Option.some.inj hc
          unfold punct? at hp
          split at hp <;> first | rfl | cases hp

theorem tokens_spelled {ts : List Token} {cs : List Char} (h : Spells ts cs) (hapart : Apart ts) :
    tokens cs = ts := by
  induction h with
  | nil => exact tokensAfter_nil
  | space hspace _ ih => rw [tokens_space hspace, ih hapart]
  | @word t ts w cs hw hrest ih =>
      have hstop : (∃ n, t = .number n) → Stops cs := by
        rintro ⟨n, rfl⟩
        refine stops_of_spells hrest fun u hu => ?_
        cases ts with
        | nil => cases hu
        | cons v ts =>
            obtain rfl := Option.some.inj hu
            obtain ⟨p, hp⟩ | hp := (List.isChain_cons_cons.1 hapart).1
            · cases hp
            · exact hp
      obtain ⟨c, rest, rfl, hspace, hnext⟩ := nextToken_word hw hstop
      rw [List.cons_append, tokens_cons hspace hnext, ih hapart.tail]

end RequestLog.Json
