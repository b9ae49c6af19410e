import RequestLog.Proofs.Except
import RequestLog.Proofs.Json.Bytes
import RequestLog.Proofs.Json.Tree

/-!
# Objects one behind the other

A stream is the texts of objects with any blanks between them. Its trees are those of the
objects, in their order, whatever stands behind it (`forest_stream`). An object that is cut
leaves no object behind: no text of one begins with the text of another
(`Enclosed.not_front`).
-/

namespace RequestLog.Json

/-- Nothing but blanks. -/
def Blanks (cs : List Char) : Prop := ∀ c ∈ cs, isSpace c = true

instance (cs : List Char) : Decidable (Blanks cs) :=
  decidable_of_iff (cs.all isSpace = true) List.all_eq_true

/-- The text of an object, from its bracket to the one that closes it. -/
def Enclosed (members : List (String × Json)) (cs : List Char) : Prop :=
  (Json.object members).Written cs ∧ ∃ inner, cs = '\x7b' :: (inner ++ ['\x7d'])

/-- Texts of objects with any blanks before, between and behind them. -/
inductive Stream : List (List (String × Json)) → List Char → Prop where
  | nil {gap : List Char} : Blanks gap → Stream [] gap
  | cons {members : List (String × Json)} {rest : List (List (String × Json))}
      {gap cs more : List Char} : Blanks gap → Enclosed members cs → Stream rest more →
      Stream (members :: rest) (gap ++ (cs ++ more))

/-! ## Tokens up to a bad one -/

section

variable {bad : Nat} {cs : List Char}

theorem tokensUntil_nil : tokensUntil bad [] = [] := by rw [tokensUntil]

theorem tokensUntil_space {c : Char} (h : isSpace c = true) :
    tokensUntil bad (c :: cs) = tokensUntil bad cs := by rw [tokensUntil, if_pos h]

theorem tokensUntil_blanks {gap : List Char} (h : Blanks gap) :
    tokensUntil bad (gap ++ cs) = tokensUntil bad cs := by
  induction gap with
  | nil => rfl
  | cons c gap ih =>
      obtain ⟨hc, hgap⟩ := List.forall_mem_cons.1 h
      rw [List.cons_append, tokensUntil_space hc, ih hgap]

theorem tokensUntil_cons {c : Char} {rest more : List Char} {t : Token}
    (hspace : isSpace c = false) (hnext : nextToken c rest = (t, more))
    (hbad : bad ≤ more.length) : tokensUntil bad (c :: rest) = t :: tokensUntil bad more := by
  have hwithin : ¬(bad ≠ 0 && decide (more.length < bad)) = true := by
    rw [Bool.and_eq_true, decide_eq_true_eq]
    exact fun h => Nat.not_lt.2 hbad (of_decide_eq_true h.2)
  rw [tokensUntil, hspace, hnext]
  exact if_neg hwithin

/-- The first token is the next one, and is the last one or spoiled where it is bad. -/
theorem tokensUntil_head {c : Char} {rest : List Char} (hspace : isSpace c = false) :
    ∃ ts, tokensUntil bad (c :: rest) = (nextToken c rest).1 :: ts ∨
      tokensUntil bad (c :: rest) = [(nextToken c rest).1.spoil] := by
  rw [tokensUntil, if_neg (by rw [hspace]; exact Bool.false_ne_true)]
  dsimp only
  split
  · exact ⟨[], .inr rfl⟩
  · exact ⟨_, .inl rfl⟩

theorem blanks_of_tokensUntil (h : tokensUntil bad cs = []) : Blanks cs := by
  induction cs with
  | nil => exact List.forall_mem_nil _
  | cons c cs ih =>
      cases hspace : isSpace c with
      | true =>
          rw [tokensUntil_space hspace] at h
          exact List.forall_mem_cons.2 ⟨hspace, ih h⟩
      | false =>
          obtain ⟨ts, hts | hts⟩ := @tokensUntil_head bad c cs hspace <;>
            rw [h] at hts <;> cases hts

theorem Spells.blanks {ts : List Token} {gap : List Char} (hgap : Blanks gap)
    (h : Spells ts cs) : Spells ts (gap ++ cs) := by
  induction gap with
  | nil => exact h
  | cons c gap ih =>
      obtain ⟨hc, hgap⟩ := List.forall_mem_cons.1 hgap
      exact .space hc (ih hgap)

theorem Word.ne_nil {t : Token} {w : List Char} (h : Word t w) : w ≠ [] := by
  obtain ⟨c, rest, rfl, -⟩ := @nextToken_word t w [] h fun _ c hc => nomatch hc
  exact List.cons_ne_nil c rest

theorem Spells.ne_nil {t : Token} {ts : List Token} (h : Spells (t :: ts) cs) : cs ≠ [] := by
  cases h with
  | space _ _ => exact List.cons_ne_nil _ _
  | word hw _ => exact List.append_ne_nil_of_left_ne_nil hw.ne_nil _

/-- Tokens that are spelled are cut, if what is behind them is no more of the last one. -/
theorem tokensUntil_spelled {ts : List Token} {w : List Char} (h : Spells ts w)
    (hapart : Apart ts) (hlast : ∀ t, ts.getLast? = some t → ∃ p, t = .punct p)
    (hbad : bad ≤ cs.length) : tokensUntil bad (w ++ cs) = ts ++ tokensUntil bad cs := by
  induction h with
  | nil => rfl
  | space hspace _ ih =>
      rw [List.cons_append, tokensUntil_space hspace]
      exact ih hapart hlast
  | @word t ts w more hw hrest ih =>
      have hstop : (∃ n, t = .number n) → Stops (more ++ cs) := by
        rintro ⟨n, rfl⟩
        cases ts with
        | nil =>
            obtain ⟨p, hp⟩ := hlast _ rfl
            cases hp
        | cons u ts =>
            have hmark : ∃ p, u = .punct p := by
              obtain ⟨p, hp⟩ | hp := (List.isChain_cons_cons.1 hapart).1
              · cases hp
              · exact hp
            have hstops := stops_of_spells hrest fun v hv => Option.some.inj hv ▸ hmark
            obtain ⟨c, more, rfl⟩ := List.exists_cons_of_ne_nil hrest.ne_nil
            exact hstops
      obtain ⟨c, rest, rfl, hspace, hnext⟩ := nextToken_word hw hstop
      have hlast' : ∀ u, ts.getLast? = some u → ∃ p, u = .punct p := by
        intro u hu
        cases ts with
        | nil => cases hu
        | cons v ts => exact hlast u (by rw [List.getLast?_cons_cons, hu])
      rw [List.append_assoc, List.cons_append, tokensUntil_cons hspace hnext, ih hapart.tail hlast',
        List.cons_append]
      rw [List.length_append]
      omega

theorem spoil_of_intact {t : Token} (h : t.spoil.Intact) : t.spoil = t := by
  cases t with
  | text s =>
      obtain ⟨x, hx⟩ := h
      obtain ⟨y, -, hy⟩ := ok_of_bind hx
      cases hy
  | _ => rfl

/-- A token without a fault that was cut stands at the front. -/
theorem word_of_tokensUntil {t : Token} {us : List Token} (h : tokensUntil bad cs = t :: us)
    (ht : t.Intact) :
    ∃ gap w more, cs = gap ++ (w ++ more) ∧ Blanks gap ∧ Word t w ∧
      (us = tokensUntil bad more ∨ us = []) := by
  induction cs with
  | nil =>
      rw [tokensUntil_nil] at h
      cases h
  | cons c cs ih =>
      cases hspace : isSpace c with
      | true =>
          rw [tokensUntil_space hspace] at h
          obtain ⟨gap, w, more, rfl, hgap, hw, hus⟩ := ih h
          exact ⟨c :: gap, w, more, rfl, List.forall_mem_cons.2 ⟨hspace, hgap⟩, hw, hus⟩
      | false =>
          have hnext : nextToken c cs = ((nextToken c cs).1, (nextToken c cs).2) := rfl
          rw [tokensUntil, if_neg (by rw [hspace]; exact Bool.false_ne_true)] at h
          dsimp only at h
          split at h
          · obtain ⟨rfl, rfl⟩ := List.cons.inj h
            have hsame := spoil_of_intact ht
            rw [hsame] at ht ⊢
            obtain ⟨w, hw, hcs⟩ := word_of_nextToken hnext ht
            exact ⟨[], w, _, hcs, List.forall_mem_nil _, hw, .inr rfl⟩
          · obtain ⟨rfl, rfl⟩ := List.cons.inj h
            obtain ⟨w, hw, hcs⟩ := word_of_nextToken hnext ht
            exact ⟨[], w, _, hcs, List.forall_mem_nil _, hw, .inl rfl⟩

/-- The first tokens that are cut stand at the front, when there is no fault in them. -/
theorem spells_of_tokensUntil {ts us : List Token} {p : Punct}
    (h : tokensUntil bad cs = ts ++ .punct p :: us) (hts : ∀ t ∈ ts, t.Intact) :
    ∃ w c more, cs = w ++ c :: more ∧ punct? c = some p ∧
      Spells (ts ++ [.punct p]) (w ++ [c]) := by
  induction ts generalizing cs with
  | nil =>
      obtain ⟨gap, w, more, rfl, hgap, hw, -⟩ := word_of_tokensUntil h trivial
      cases hw with
      | @punct p c hp =>
          exact ⟨gap, c, more, rfl, hp, .blanks hgap (.word (.punct hp) .nil)⟩
  | cons t ts ih =>
      obtain ⟨ht, hts⟩ := List.forall_mem_cons.1 hts
      obtain ⟨gap, w, more, rfl, hgap, hw, hmore | hnone⟩ := word_of_tokensUntil h ht
      · obtain ⟨w', c, more, rfl, hc, hspells⟩ := ih hmore.symm hts
        refine ⟨gap ++ (w ++ w'), c, more, ?_, hc, ?_⟩
        · simp only [List.append_assoc]
        · rw [List.append_assoc, List.append_assoc]
          exact .blanks hgap (.word hw hspells)
      · exact absurd hnone (List.append_ne_nil_of_right_ne_nil ts (List.cons_ne_nil _ us))

end

/-! ## Trees of objects -/

/-- Members end with the bracket that closes them. -/
theorem tokens_membersOf (members : List (String × Json)) :
    (∃ ts, (membersOf members).tokens = ts ++ [.punct .closeObject]) ∧
      ∃ ts, (membersOf members).more = ts ++ [.punct .closeObject] := by
  induction members with
  | nil => exact ⟨⟨[], rfl⟩, [], rfl⟩
  | cons m rest ih =>
      obtain ⟨key, v⟩ := m
      obtain ⟨-, ts, hts⟩ := ih
      refine ⟨⟨.text (.ok key) :: .punct .colon :: (v.tree.tokens ++ ts), ?_⟩,
        .punct .comma :: .text (.ok key) :: .punct .colon :: (v.tree.tokens ++ ts), ?_⟩
      · rw [membersOf, Members.tokens, hts]
        simp only [List.cons_append, List.append_assoc]
      · rw [membersOf, Members.more, hts]
        simp only [List.cons_append, List.append_assoc]

theorem tokens_object (members : List (String × Json)) :
    ∃ ts, (Json.object members).tree.tokens =
      .punct .openObject :: (ts ++ [.punct .closeObject]) := by
  obtain ⟨ts, hts⟩ := (tokens_membersOf members).1
  exact ⟨ts, by rw [tree, Tree.tokens, hts]⟩

theorem build_whole {t : Tree} (h : t.Whole) (rest : List Token) :
    build .value [] (t.tokens ++ rest) = (t, rest) := build_tree t [] rest h

theorem forest_whole {t : Tree} (h : t.Whole) (rest : List Token) :
    forest (t.tokens ++ rest) = t :: forest rest := by
  obtain ⟨token, ts, htokens, -⟩ := h.head
  have hbuild := build_whole h rest
  rw [htokens, List.cons_append] at hbuild ⊢
  rw [forest, hbuild]

theorem apart_object (members : List (String × Json)) :
    Apart (Json.object members).tree.tokens ∧
      ∀ t, (Json.object members).tree.tokens.getLast? = some t → ∃ p, t = .punct p := by
  refine ⟨(whole_tree (.object members)).apart, fun t ht => ?_⟩
  obtain ⟨ts, hts⟩ := tokens_object members
  rw [hts, ← List.cons_append, List.getLast?_append, List.getLast?_singleton] at ht
  exact ⟨_, (Option.some.inj ht).symm⟩

section

variable {objects : List (List (String × Json))} {members : List (String × Json)}
  {cs more : List Char} {bad : Nat}

/-- The text of an object has the object's tokens, whatever stands behind it. -/
theorem Enclosed.tokensUntil_append (h : Enclosed members cs) (hbad : bad ≤ more.length) :
    tokensUntil bad (cs ++ more) =
      (Json.object members).tree.tokens ++ tokensUntil bad more :=
  tokensUntil_spelled h.1 (apart_object members).1 (apart_object members).2 hbad

/-- A stream has the trees of its objects, whatever stands behind it. -/
theorem Stream.forest_append (h : Stream objects cs) (hbad : bad ≤ more.length) :
    forest (tokensUntil bad (cs ++ more)) =
      objects.map (fun members => (Json.object members).tree) ++
        forest (tokensUntil bad more) := by
  induction h with
  | nil hgap => rw [tokensUntil_blanks hgap, List.map_nil, List.nil_append]
  | @cons members rest gap cs behind hgap hcs _ ih =>
      have hlength : bad ≤ (behind ++ more).length := by
        rw [List.length_append]
        omega
      rw [List.append_assoc, List.append_assoc, tokensUntil_blanks hgap,
        hcs.tokensUntil_append hlength, forest_whole (whole_tree _), ih, List.map_cons,
        List.cons_append]

/-- An object with one member, whose value is a single token. -/
theorem enclosed_single {key : String} {v : Json} {t : Token} {k w : List Char}
    (hkey : Word (.text (.ok key)) k) (h : v.tree.tokens = [t]) (hw : Word t w) :
    Enclosed [(key, v)] ('\x7b' :: (k ++ ':' :: (w ++ ['\x7d']))) := by
  constructor
  · rw [Json.Written, tree, membersOf, membersOf, Tree.tokens, Members.tokens, h]
    exact .word (.punct rfl) (.word hkey (.word (.punct rfl) (.word hw (.word (.punct rfl) .nil))))
  · exact ⟨k ++ ':' :: w, by rw [List.append_assoc, List.cons_append]⟩

/-- The text of an object ends with its bracket, and so does what is cut off its front. -/
theorem Enclosed.bracket_mem (h : Enclosed members cs) {front back : List Char}
    (hcs : cs = front ++ back) (hback : back ≠ []) : '\x7d' ∈ back := by
  obtain ⟨inner, hinner⟩ := h.2
  have hends : cs.getLast? = some '\x7d' := by
    rw [hinner, ← List.cons_append, List.getLast?_append, List.getLast?_singleton]
    rfl
  obtain ⟨d, hd⟩ := Option.ne_none_iff_exists'.1 (mt List.getLast?_eq_none_iff.1 hback)
  rw [hcs, List.getLast?_append, hd] at hends
  exact Option.some.inj hends ▸ List.mem_of_getLast? hd

/-- If the text of an object begins with that of another, nothing but blanks is behind it. -/
theorem Enclosed.blanks_behind (h : Enclosed members cs) {members' : List (String × Json)}
    {w rest : List Char} (hcs : cs = w ++ rest) (hw : (Json.object members').Written w) :
    Blanks rest := by
  have hself : tokensUntil 0 (cs ++ []) = _ := h.tokensUntil_append (Nat.le_refl 0)
  have hother : tokensUntil 0 (w ++ rest) = _ :=
    tokensUntil_spelled hw (apart_object members').1 (apart_object members').2 (Nat.zero_le _)
  rw [← hcs, ← List.append_nil cs, hself] at hother
  -- Both trees are the first one that is built from the same tokens.
  have hbuild := build_whole (whole_tree (.object members)) (tokensUntil 0 [])
  rw [hother, build_whole (whole_tree _), tokensUntil_nil] at hbuild
  exact blanks_of_tokensUntil (Prod.mk.inj hbuild).2

/-- Of an object that is cut nothing that is left begins with the text of an object. -/
theorem Enclosed.not_front (h : Enclosed members cs) {front back : List Char}
    (hcs : cs = front ++ back) (hback : back ≠ []) (n : Nat) {members' : List (String × Json)}
    {us : List Token} :
    tokensUntil bad (front ++ List.replicate n '\x7f') ≠
      (Json.object members').tree.tokens ++ us := by
  intro htokens
  obtain ⟨ts, hts⟩ := tokens_object members'
  have hintact := intact_tree (.object members')
  rw [hts, ← List.cons_append] at hintact
  rw [hts, ← List.cons_append, List.append_assoc, List.singleton_append] at htokens
  obtain ⟨w, c, rest, heq, hc, hspells⟩ := spells_of_tokensUntil htokens
    fun t ht => hintact t (List.mem_append_left _ ht)
  rw [List.cons_append, ← hts] at hspells
  have hmark : c ∉ List.replicate n '\x7f' := by
    intro hmem
    rw [List.eq_of_mem_replicate hmem] at hc
    cases hc
  -- The bracket that closes the other object is among the characters that are left.
  obtain ⟨front', rfl⟩ : ∃ front', front = w ++ c :: front' := by
    obtain ⟨ds, -, hds⟩ | ⟨ds, rfl, hds⟩ := List.append_eq_append_iff.1 heq
    · exact absurd (hds ▸ List.mem_append_right ds List.mem_cons_self) hmark
    · cases ds with
      | nil =>
          rw [List.nil_append] at hds
          exact absurd (hds ▸ List.mem_cons_self) hmark
      | cons d ds => exact ⟨ds, by rw [(List.cons.inj hds).1]⟩
  have hsplit : cs = (w ++ [c]) ++ (front' ++ back) := by
    rw [hcs]
    simp only [List.append_assoc, List.cons_append, List.nil_append]
  have hlast := h.bracket_mem hsplit (List.append_ne_nil_of_right_ne_nil front' hback)
  exact absurd (h.blanks_behind hsplit hspells _ hlast) (by decide)

end

/-! ## What is no object -/

/-- There are tokens, and the first of them are not those of an object. -/
def NoObject (ts : List Token) : Prop :=
  ts ≠ [] ∧ ∀ (members : List (String × Json)) (us : List Token),
    ts ≠ (Json.object members).tree.tokens ++ us

theorem NoObject.forest {ts : List Token} (h : NoObject ts) :
    ∃ t rest, Json.forest ts = t :: rest ∧ ∀ members, t ≠ (Json.object members).tree := by
  obtain ⟨token, us, rfl⟩ := List.exists_cons_of_ne_nil h.1
  refine ⟨_, _, by rw [Json.forest], fun members htree => ?_⟩
  have hbuild : build .value [] (token :: us) = (_, (build .value [] (token :: us)).2) :=
    Prod.ext htree rfl
  exact h.2 members _ (tokens_of_build hbuild (whole_tree (.object members)))

theorem openObject_of_punct? {c : Char} (h : punct? c = some .openObject) : c = '{' := by
  unfold punct? at h
  split at h <;> cases h
  rfl

/-- The bracket that opens an object is one token and no other begins with it. -/
theorem openObject_of_nextToken {c : Char} {rest : List Char}
    (h : (nextToken c rest).1 = .punct .openObject) : c = '{' := by
  obtain ⟨w, hw, hcs⟩ := word_of_nextToken (Prod.ext h rfl) trivial
  cases hw with
  | punct hc =>
      rw [List.singleton_append] at hcs
      rw [(List.cons.inj hcs).1, openObject_of_punct? hc]

theorem spoil_openObject {t : Token} (h : t.spoil = .punct .openObject) :
    t = .punct .openObject := by
  cases t with
  | text s => cases h
  | _ => exact h

/-- Behind blanks an object begins with its bracket. -/
theorem noObject_of_ne {gap rest : List Char} {c : Char} {bad : Nat} (hgap : Blanks gap)
    (hspace : isSpace c = false) (hc : c ≠ '{') :
    NoObject (tokensUntil bad (gap ++ c :: rest)) := by
  rw [tokensUntil_blanks hgap]
  obtain ⟨ts, hts | hts⟩ := @tokensUntil_head bad c rest hspace
  all_goals
    rw [hts]
    refine ⟨List.cons_ne_nil _ _, fun members us htokens => ?_⟩
    obtain ⟨vs, hvs⟩ := tokens_object members
    rw [hvs, List.cons_append] at htokens
  · exact hc (openObject_of_nextToken (List.cons.inj htokens).1)
  · exact hc (openObject_of_nextToken (spoil_openObject (List.cons.inj htokens).1))

/-- A blank has a byte of its own. -/
theorem byte_of_isSpace {c : Char} (h : isSpace c = true) :
    c.toNat < 127 ∧ UInt8.ofNat c.toNat ∈ [0x20, 0x0a, 0x09, 0x0d] := by
  simp only [isSpace, Bool.or_eq_true, decide_eq_true_eq] at h
  obtain ((rfl | rfl) | rfl) | rfl := h <;> decide

/-- A byte that is neither that of a blank nor the one that opens an object. -/
theorem noObject_of_byte {gap : List Char} {b : UInt8} (hgap : Blanks gap)
    (hspace : b ∉ [0x20, 0x0a, 0x09, 0x0d]) (hb : b ≠ 0x7b) (rest : List UInt8) :
    NoObject (tokensOfBytes (encoded gap ++ b :: rest)) := by
  obtain ⟨c, cs, hcs, hbyte⟩ := head_characters b rest
  rw [tokensOfBytes, characters_encoded, hcs]
  refine noObject_of_ne hgap (Bool.eq_false_iff.2 fun hblank => hspace ?_) fun hopen => hb ?_
  · obtain ⟨hsmall, hmem⟩ := byte_of_isSpace hblank
    exact hbyte hsmall ▸ hmem
  · subst hopen
    exact hbyte (by decide)

section

variable {members : List (String × Json)} {cs : List Char}

/-- What is left of an object that is cut behind its first byte. -/
theorem Enclosed.noObject_take (h : Enclosed members cs) {k : Nat} (hpos : 0 < k)
    (hk : k < (encoded cs).length) : NoObject (tokensOfBytes ((encoded cs).take k)) := by
  obtain ⟨front, back, n, hcs, hback, htake⟩ := characters_take hk
  refine ⟨fun hnil => ?_, fun members' us => ?_⟩
  · obtain ⟨inner, hinner⟩ := h.2
    obtain ⟨k, rfl⟩ := Nat.exists_eq_add_one.2 hpos
    rw [hinner, encoded_cons, utf8EncodeChar_ascii (by decide), List.singleton_append,
      List.take_succ_cons, ← List.singleton_append, ← utf8EncodeChar_ascii (by decide),
      tokensOfBytes, characters_append] at hnil
    exact absurd (blanks_of_tokensUntil hnil _ List.mem_cons_self) (by decide)
  · rw [tokensOfBytes, htake]
    exact h.not_front hcs hback n

end

/-! ## Where a stream is cut -/

/-- A place inside of one of the objects of a stream, counted in bytes. -/
inductive Inside : List Char → Nat → Prop where
  | mk {before after : List (List (String × Json))} {members : List (String × Json)}
      {pre cs post : List Char} {i : Nat} : Stream before pre → Enclosed members cs →
      Stream after post → (encoded pre).length < i → i < (encoded (pre ++ cs)).length →
      Inside (pre ++ (cs ++ post)) i

theorem encoded_blanks {gap : List Char} (h : Blanks gap) :
    encoded gap = gap.map fun c => UInt8.ofNat c.toNat := by
  induction gap with
  | nil => rfl
  | cons c gap ih =>
      obtain ⟨hc, hgap⟩ := List.forall_mem_cons.1 h
      have hsmall : c.toNat < 128 := Nat.lt_succ_of_lt (byte_of_isSpace hc).1
      rw [encoded_cons, utf8EncodeChar_ascii hsmall, ih hgap, List.map_cons, List.singleton_append]

theorem Blanks.take {gap : List Char} (h : Blanks gap) (i : Nat) :
    Blanks (gap.take i) ∧ (encoded gap).take i = encoded (gap.take i) := by
  have htake : Blanks (gap.take i) := fun c hc => h c (List.mem_of_mem_take hc)
  exact ⟨htake, by rw [encoded_blanks h, encoded_blanks htake, List.map_take]⟩

theorem Inside.cons {members : List (String × Json)} {gap cs more : List Char} {i : Nat}
    (hgap : Blanks gap) (hcs : Enclosed members cs) (h : Inside more i) :
    Inside (gap ++ (cs ++ more)) ((encoded gap).length + ((encoded cs).length + i)) := by
  obtain @⟨before, after, members', pre, cs', post, i, hbefore, hcs', hafter, hlow, hhigh⟩ := h
  have hpre : gap ++ (cs ++ (pre ++ (cs' ++ post))) = gap ++ (cs ++ pre) ++ (cs' ++ post) := by
    simp only [List.append_assoc]
  rw [hpre]
  refine .mk (.cons hgap hcs hbefore) hcs' hafter ?_ ?_
  all_goals
    simp only [encoded_append, List.length_append] at *
    omega

/-- A stream is cut inside of an object, or what is left is the stream of its first objects. -/
theorem Stream.take_or_inside {objects : List (List (String × Json))} {cs : List Char}
    (h : Stream objects cs) {i : Nat} (hi : i ≤ (encoded cs).length) :
    Inside cs i ∨
      ∃ n front, Stream (objects.take n) front ∧ (encoded cs).take i = encoded front := by
  induction h generalizing i with
  | @nil gap hgap =>
      obtain ⟨hblanks, htake⟩ := hgap.take i
      exact .inr ⟨0, gap.take i, .nil hblanks, htake⟩
  | @cons members rest gap cs more hgap hcs hmore ih =>
      have hlength : (encoded (gap ++ (cs ++ more))).length =
          (encoded gap).length + ((encoded cs).length + (encoded more).length) := by
        simp only [encoded_append, List.length_append]
      rw [hlength] at hi
      by_cases hbefore : i ≤ (encoded gap).length
      · obtain ⟨hblanks, htake⟩ := hgap.take i
        refine .inr ⟨0, gap.take i, .nil hblanks, ?_⟩
        rw [encoded_append, List.take_append_of_le_length hbefore, htake]
      by_cases hinside : i < (encoded gap).length + (encoded cs).length
      · refine .inl (.mk (.nil hgap) hcs hmore (Nat.lt_of_not_le hbefore) ?_)
        rwa [encoded_append, List.length_append]
      obtain ⟨j, rfl⟩ : ∃ j, i = (encoded gap).length + ((encoded cs).length + j) :=
        ⟨i - (encoded gap).length - (encoded cs).length, by omega⟩
      obtain hmid | ⟨n, front, hfront, htake⟩ := ih (show j ≤ (encoded more).length by omega)
      · exact .inl (hmid.cons hgap hcs)
      · refine .inr ⟨n + 1, gap ++ (cs ++ front), .cons hgap hcs hfront, ?_⟩
        simp only [encoded_append, List.take_length_add_append, htake]

end RequestLog.Json
