import RequestLog.Json.Tree
import RequestLog.Proofs.Json.Token

/-!
# Trees and the texts that they are written as

A value has a tree, and its tree has tokens; a text is one of the value's when it spells
these tokens (`Json.Written`). The machine that builds trees takes exactly the tokens of a
value to build its tree (`build_tokens_iff`).

In one direction the machine is followed token by token. What it has taken so far stands in
its place and its stack, and a step adds the token to it (`Step.Takes`); a tree that breaks
off somewhere is recognized by that, and is the tree of no value. In the other direction
the tree is followed, and what is on the stack is left alone until the tree is complete.
-/

namespace RequestLog.Json

/-! ## Tokens of a tree -/

mutual

/-- The tokens of a tree, up to where it breaks off. -/
def Tree.tokens : Tree → List Token
  | .null => [.null]
  | .bool b => [.bool b]
  | .number n => [.number n]
  | .text s => [.text s]
  | .array items => .punct .openArray :: items.tokens
  | .object members => .punct .openObject :: members.tokens
  | .broken _ _ => []

def Items.tokens : Items → List Token
  | .closed => [.punct .closeArray]
  | .stopped _ => []
  | .cons t rest => t.tokens ++ rest.more

/-- Tokens of the items that follow another one. -/
def Items.more : Items → List Token
  | .closed => [.punct .closeArray]
  | .stopped _ => []
  | .cons t rest => .punct .comma :: (t.tokens ++ rest.more)

def Members.tokens : Members → List Token
  | .closed => [.punct .closeObject]
  | .stopped _ _ => []
  | .cons key t rest => .text key :: .punct .colon :: (t.tokens ++ rest.more)

/-- Tokens of the members that follow another one. -/
def Members.more : Members → List Token
  | .closed => [.punct .closeObject]
  | .stopped _ _ => []
  | .cons key t rest => .punct .comma :: .text key :: .punct .colon :: (t.tokens ++ rest.more)

end

mutual

/-- Whether a tree breaks off nowhere. -/
def Tree.Whole : Tree → Prop
  | .null | .bool _ | .number _ | .text _ => True
  | .array items => items.Whole
  | .object members => members.Whole
  | .broken _ _ => False

def Items.Whole : Items → Prop
  | .closed => True
  | .stopped _ => False
  | .cons t rest => t.Whole ∧ rest.Whole

def Members.Whole : Members → Prop
  | .closed => True
  | .stopped _ _ => False
  | .cons _ t rest => t.Whole ∧ rest.Whole

end

/-! ## What the machine has taken -/

/-- The tokens of items already read, the last one first, and a comma behind each. -/
def itemsFront : List Tree → List Token
  | [] => []
  | t :: done => itemsFront done ++ (t.tokens ++ [.punct .comma])

def membersFront : List Member → List Token
  | [] => []
  | m :: done =>
      membersFront done ++ (.text m.1 :: .punct .colon :: (m.2.tokens ++ [.punct .comma]))

def Frame.tokens : Frame → List Token
  | .array done => .punct .openArray :: itemsFront done
  | .object done key =>
      .punct .openObject :: (membersFront done ++ [.text key, .punct .colon])

def stackTokens : List Frame → List Token
  | [] => []
  | f :: stack => stackTokens stack ++ f.tokens

def Place.tokens : Place → List Token
  | .value => []
  | .item done => .punct .openArray :: itemsFront done
  | .key done => .punct .openObject :: membersFront done
  | .colon done k => .punct .openObject :: (membersFront done ++ [.text k])
  | .after f t => f.tokens ++ t.tokens

/-- After a step some tokens are taken, or the tree breaks off. -/
def Step.Takes (ts : List Token) : Step → Prop
  | .go place stack => stackTokens stack ++ place.tokens = ts
  | .done t => t.tokens = ts
  | .halt t => ¬ t.Whole

theorem Items.tokens_behind (done : List Tree) (t : Tree) (last : Items) :
    (Items.behind (.cons t last) done).tokens = itemsFront done ++ (t.tokens ++ last.more) := by
  induction done generalizing t last with
  | nil => rfl
  | cons d done ih =>
      refine (ih d (.cons t last)).trans ?_
      simp only [itemsFront, Items.more, List.append_assoc, List.singleton_append]

theorem Members.tokens_behind (done : List Member) (key : Except Fault String) (t : Tree)
    (last : Members) :
    (Members.behind (.cons key t last) done).tokens =
      membersFront done ++ (.text key :: .punct .colon :: (t.tokens ++ last.more)) := by
  induction done generalizing key t last with
  | nil => rfl
  | cons d done ih =>
      refine (ih d.1 d.2 (.cons key t last)).trans ?_
      simp only [membersFront, Members.more, List.append_assoc, List.cons_append,
        List.nil_append]

theorem Items.whole_of_behind {last : Items} {done : List Tree}
    (h : (Items.behind last done).Whole) : last.Whole := by
  induction done generalizing last with
  | nil => exact h
  | cons t done ih =>
      have hcons : (Items.cons t last).Whole := ih h
      exact hcons.2

theorem Members.whole_of_behind {last : Members} {done : List Member}
    (h : (Members.behind last done).Whole) : last.Whole := by
  induction done generalizing last with
  | nil => exact h
  | cons m done ih =>
      have hcons : (Members.cons m.1 m.2 last).Whole := ih h
      exact hcons.2

/-- A bracket in which the text breaks off is not whole, nor is any around it. -/
theorem not_whole_abandon {b : Break} {t : Tree} {stack : List Frame} (h : ¬ t.Whole) :
    ¬ (abandon b t stack).Whole := by
  induction stack generalizing t with
  | nil => exact h
  | cons f stack ih =>
      refine ih ?_
      cases f with
      | array done => exact fun hwhole => (Items.whole_of_behind hwhole).2
      | object done key => exact fun hwhole => (Members.whole_of_behind hwhole).2

section

variable (stack : List Frame)

theorem complete_takes (t : Tree) {ts : List Token} (h : stackTokens stack ++ t.tokens = ts) :
    (complete t stack).Takes ts := by
  subst h
  cases stack with
  | nil => rfl
  | cons f stack =>
      show stackTokens stack ++ (f.tokens ++ t.tokens) = _
      rw [stackTokens, List.append_assoc]

theorem leaf_tokens {token : Token} {t : Tree} (h : token.leaf = .ok t) : t.tokens = [token] := by
  cases token <;> cases h <;> rfl

theorem startValue_takes (token : Token) {ts : List Token}
    (h : stackTokens stack ++ [token] = ts) : (startValue stack token).Takes ts := by
  unfold startValue
  split
  · exact h
  · exact h
  · split
    · next hleaf => exact complete_takes stack _ (by rw [leaf_tokens hleaf, h])
    · exact not_whole_abandon id

/-- A step takes its token, unless the tree breaks off with it. -/
theorem step_takes (place : Place) (token : Token) :
    (step place stack token).Takes (stackTokens stack ++ (place.tokens ++ [token])) := by
  cases place with
  | value => exact startValue_takes stack token rfl
  | item done =>
      simp only [step]
      split
      · split
        · next hdone =>
            obtain rfl := List.isEmpty_iff.1 hdone
            exact complete_takes stack _ rfl
        · exact not_whole_abandon fun hwhole => Items.whole_of_behind hwhole
      · exact startValue_takes _ token (List.append_assoc ..)
  | key done =>
      simp only [step]
      split
      · exact complete_takes stack _ rfl
      · rfl
      · exact not_whole_abandon fun hwhole => Members.whole_of_behind hwhole
  | colon done key =>
      simp only [step]
      split
      · simp only [Step.Takes, stackTokens, Frame.tokens, Place.tokens, List.append_assoc,
          List.cons_append, List.nil_append, List.append_nil]
      · exact not_whole_abandon id
  | after f t =>
      cases f with
      | array done =>
          simp only [step]
          split
          · refine complete_takes stack _ (congrArg _ ?_)
            refine (congrArg _ (Items.tokens_behind done t .closed)).trans ?_
            simp only [Place.tokens, Frame.tokens, Items.more, List.append_assoc,
              List.cons_append]
          · simp only [Step.Takes, Place.tokens, Frame.tokens, itemsFront, List.append_assoc,
              List.cons_append]
          · exact not_whole_abandon fun hwhole => Items.whole_of_behind hwhole
      | object done key =>
          simp only [step]
          split
          · refine complete_takes stack _ (congrArg _ ?_)
            refine (congrArg _ (Members.tokens_behind done key t .closed)).trans ?_
            simp only [Place.tokens, Frame.tokens, Members.more, List.append_assoc,
              List.cons_append, List.nil_append]
          · simp only [Step.Takes, Place.tokens, Frame.tokens, membersFront, List.append_assoc,
              List.cons_append, List.nil_append]
          · exact not_whole_abandon fun hwhole => Members.whole_of_behind hwhole

end

theorem not_whole_cut (stack : List Frame) (place : Place) : ¬ (cut stack place).Whole := by
  cases place with
  | value => exact not_whole_abandon id
  | item done => exact not_whole_abandon fun hwhole => Items.whole_of_behind hwhole
  | key done => exact not_whole_abandon fun hwhole => Members.whole_of_behind hwhole
  | colon done key => exact not_whole_abandon id
  | after f t =>
      cases f with
      | array done => exact not_whole_abandon fun hwhole => Items.whole_of_behind hwhole
      | object done key => exact not_whole_abandon fun hwhole => Members.whole_of_behind hwhole

/-- A whole tree was built from its tokens. -/
theorem tokens_of_build {place : Place} {stack : List Frame} {ts rest : List Token} {t : Tree}
    (h : build place stack ts = (t, rest)) (ht : t.Whole) :
    stackTokens stack ++ (place.tokens ++ ts) = t.tokens ++ rest := by
  induction ts generalizing place stack with
  | nil =>
      rw [build] at h
      cases h
      exact absurd ht (not_whole_cut stack place)
  | cons token ts ih =>
      have htakes := step_takes stack place token
      have htokens : stackTokens stack ++ (place.tokens ++ token :: ts) =
          stackTokens stack ++ (place.tokens ++ [token]) ++ ts := by
        simp only [List.append_assoc, List.singleton_append]
      rw [htokens]
      rw [build] at h
      split at h
      · next place' stack' hstep =>
          rw [hstep] at htakes
          rw [← htakes, List.append_assoc, ih h]
      · next tree hstep =>
          rw [hstep] at htakes
          cases h
          rw [← htakes]
      · next tree hstep =>
          rw [hstep] at htakes
          cases h
          exact absurd ht htakes

/-! ## What the machine builds -/

/-- What becomes of the tokens behind a step. -/
def Step.run : Step → List Token → Tree × List Token
  | .go place stack, ts => build place stack ts
  | .done t, ts => (t, ts)
  | .halt t, _ => (t, [])

theorem build_cons (place : Place) (stack : List Frame) (token : Token) (ts : List Token) :
    build place stack (token :: ts) = (step place stack token).run ts := by
  rw [build]
  cases step place stack token <;> rfl

/-- A whole tree begins with a token, and not with one that ends an array. -/
theorem Tree.Whole.head {t : Tree} (h : t.Whole) :
    ∃ token ts, t.tokens = token :: ts ∧ token ≠ .punct .closeArray := by
  cases t with
  | broken => exact absurd h id
  | _ => exact ⟨_, _, rfl, by simp⟩

/-- Before an item stands a value. -/
theorem build_item {t : Tree} (h : t.Whole) (done : List Tree) (stack : List Frame)
    (rest : List Token) :
    build (.item done) stack (t.tokens ++ rest) =
      build .value (.array done :: stack) (t.tokens ++ rest) := by
  obtain ⟨token, ts, htokens, hclose⟩ := h.head
  rw [htokens, List.cons_append, build_cons, build_cons]
  refine congrArg (Step.run · _) ?_
  simp only [step]

/-- Before a member stands its key with a colon. -/
theorem build_member (done : List Member) (key : Except Fault String) (stack : List Frame)
    (ts : List Token) :
    build (.key done) stack (.text key :: .punct .colon :: ts) =
      build .value (.object done key :: stack) ts := by
  rw [build_cons]
  show build (.colon done key) stack _ = _
  exact build_cons ..

mutual

theorem build_tree : ∀ (t : Tree) (stack : List Frame) (rest : List Token), t.Whole →
    build .value stack (t.tokens ++ rest) = (complete t stack).run rest
  | .null, stack, rest, _ => build_cons ..
  | .bool _, stack, rest, _ => build_cons ..
  | .number _, stack, rest, _ => build_cons ..
  | .text _, stack, rest, _ => build_cons ..
  | .broken .., _, _, h => absurd h id
  | .array .closed, stack, rest, _ => by
      rw [Tree.tokens, List.cons_append, build_cons]
      exact build_cons ..
  | .array (.stopped _), _, _, h => absurd h id
  | .array (.cons t items), stack, rest, h => by
      have ht : t.Whole := h.1
      rw [Tree.tokens, List.cons_append, build_cons, Items.tokens, List.append_assoc]
      refine (build_item ht [] stack _).trans ?_
      rw [build_tree t _ _ ht]
      exact build_items items [] t stack rest h.2
  | .object .closed, stack, rest, _ => by
      rw [Tree.tokens, List.cons_append, build_cons]
      exact build_cons ..
  | .object (.stopped ..), _, _, h => absurd h id
  | .object (.cons key t members), stack, rest, h => by
      have ht : t.Whole := h.1
      rw [Tree.tokens, List.cons_append, build_cons, Members.tokens, List.cons_append,
        List.cons_append, List.append_assoc]
      refine (build_member [] key stack _).trans ?_
      rw [build_tree t _ _ ht]
      exact build_members members [] key t stack rest h.2

theorem build_items : ∀ (items : Items) (done : List Tree) (t : Tree) (stack : List Frame)
    (rest : List Token), items.Whole →
    build (.after (.array done) t) stack (items.more ++ rest) =
      (complete (.array (Items.behind items (t :: done))) stack).run rest
  | .closed, _, _, _, _, _ => build_cons ..
  | .stopped _, _, _, _, _, h => absurd h id
  | .cons u items, done, t, stack, rest, h => by
      have hu : u.Whole := h.1
      rw [Items.more, List.cons_append, build_cons, List.append_assoc]
      refine (build_item hu (t :: done) stack _).trans ?_
      rw [build_tree u _ _ hu]
      exact build_items items (t :: done) u stack rest h.2

theorem build_members : ∀ (members : Members) (done : List Member) (key : Except Fault String)
    (t : Tree) (stack : List Frame) (rest : List Token), members.Whole →
    build (.after (.object done key) t) stack (members.more ++ rest) =
      (complete (.object (Members.behind members ((key, t) :: done))) stack).run rest
  | .closed, _, _, _, _, _, _ => build_cons ..
  | .stopped .., _, _, _, _, _, h => absurd h id
  | .cons k u members, done, key, t, stack, rest, h => by
      have hu : u.Whole := h.1
      rw [Members.more, List.cons_append, build_cons, List.cons_append, List.cons_append,
        List.append_assoc]
      refine (build_member ((key, t) :: done) k stack _).trans ?_
      rw [build_tree u _ _ hu]
      exact build_members members ((key, t) :: done) k u stack rest h.2

end

/-! ## Values -/

mutual

def tree : Json → Tree
  | .null => .null
  | .bool b => .bool b
  | .number n => .number (.ok n)
  | .text s => .text (.ok s)
  | .array items => .array (itemsOf items)
  | .object members => .object (membersOf members)

def itemsOf : List Json → Items
  | [] => .closed
  | v :: rest => .cons v.tree (itemsOf rest)

def membersOf : List (String × Json) → Members
  | [] => .closed
  | (key, v) :: rest => .cons (.ok key) v.tree (membersOf rest)

end

mutual

theorem tree_injective : ∀ {v w : Json}, v.tree = w.tree → v = w
  | .null, w, h => by cases w <;> simp_all [tree]
  | .bool _, w, h => by cases w <;> simp_all [tree]
  | .number _, w, h => by cases w <;> simp_all [tree]
  | .text _, w, h => by cases w <;> simp_all [tree]
  | .array items, w, h => by
      cases w with
      | array items' => rw [itemsOf_injective (Tree.array.inj h)]
      | _ => simp [tree] at h
  | .object members, w, h => by
      cases w with
      | object members' => rw [membersOf_injective (Tree.object.inj h)]
      | _ => simp [tree] at h

theorem itemsOf_injective : ∀ {vs ws : List Json}, itemsOf vs = itemsOf ws → vs = ws
  | [], [], _ => rfl
  | v :: vs, w :: ws, h => by
      obtain ⟨hv, hvs⟩ := Items.cons.inj h
      rw [tree_injective hv, itemsOf_injective hvs]

theorem membersOf_injective : ∀ {vs ws : List (String × Json)}, membersOf vs = membersOf ws →
    vs = ws
  | [], [], _ => rfl
  | (k, v) :: vs, (l, w) :: ws, h => by
      obtain ⟨hk, hv, hvs⟩ := Members.cons.inj h
      rw [Except.ok.inj hk, tree_injective hv, membersOf_injective hvs]

end

/-- A tree with one member is that of an object with one member. -/
theorem single_of_tree {v : Json} {key : String} {t : Tree}
    (h : v.tree = .object (.cons (.ok key) t .closed)) :
    ∃ w : Json, v = .object [(key, w)] ∧ t = w.tree := by
  cases v with
  | object members =>
      match members with
      | [] => cases h
      | [(k, w)] =>
          obtain ⟨hkey, ht, -⟩ := Members.cons.inj (Tree.object.inj h)
          exact ⟨w, by rw [Except.ok.inj hkey], ht.symm⟩
      | (_, _) :: (_, _) :: _ => cases (Members.cons.inj (Tree.object.inj h)).2.2
  | _ => simp [tree] at h

/-- The texts of a value: its tokens in their order, with blanks between them. -/
def Written (v : Json) (cs : List Char) : Prop := Spells v.tree.tokens cs

mutual

theorem whole_tree : ∀ v : Json, v.tree.Whole
  | .null | .bool _ | .number _ | .text _ => trivial
  | .array items => whole_itemsOf items
  | .object members => whole_membersOf members

theorem whole_itemsOf : ∀ items : List Json, (itemsOf items).Whole
  | [] => trivial
  | v :: rest => ⟨whole_tree v, whole_itemsOf rest⟩

theorem whole_membersOf : ∀ members : List (String × Json), (membersOf members).Whole
  | [] => trivial
  | (_, v) :: rest => ⟨whole_tree v, whole_membersOf rest⟩

end

mutual

theorem intact_tree : ∀ v : Json, ∀ t ∈ v.tree.tokens, t.Intact
  | .null | .bool _ => by simp [tree, Tree.tokens, Token.Intact]
  | .number n => by simp [tree, Tree.tokens, Token.Intact]
  | .text s => by simp [tree, Tree.tokens, Token.Intact]
  | .array items => by
      rw [tree, Tree.tokens, List.forall_mem_cons]
      exact ⟨trivial, (intact_itemsOf items).1⟩
  | .object members => by
      rw [tree, Tree.tokens, List.forall_mem_cons]
      exact ⟨trivial, (intact_membersOf members).1⟩

theorem intact_itemsOf : ∀ items : List Json,
    (∀ t ∈ (itemsOf items).tokens, t.Intact) ∧ ∀ t ∈ (itemsOf items).more, t.Intact
  | [] => by simp [itemsOf, Items.tokens, Items.more, Token.Intact]
  | v :: rest => by
      have h : ∀ t ∈ v.tree.tokens ++ (itemsOf rest).more, t.Intact :=
        List.forall_mem_append.2 ⟨intact_tree v, (intact_itemsOf rest).2⟩
      rw [itemsOf, Items.tokens, Items.more]
      exact ⟨h, List.forall_mem_cons.2 ⟨trivial, h⟩⟩

theorem intact_membersOf : ∀ members : List (String × Json),
    (∀ t ∈ (membersOf members).tokens, t.Intact) ∧ ∀ t ∈ (membersOf members).more, t.Intact
  | [] => by simp [membersOf, Members.tokens, Members.more, Token.Intact]
  | (key, v) :: rest => by
      have h : ∀ t ∈ Token.text (.ok key) :: .punct .colon :: (v.tree.tokens ++
          (membersOf rest).more), t.Intact := by
        rw [List.forall_mem_cons, List.forall_mem_cons, List.forall_mem_append]
        exact ⟨⟨key, rfl⟩, trivial, intact_tree v, (intact_membersOf rest).2⟩
      rw [membersOf, Members.tokens, Members.more]
      exact ⟨h, List.forall_mem_cons.2 ⟨trivial, h⟩⟩

end

theorem apart_mark {p : Punct} {ts : List Token} (h : Apart ts) : Apart (.punct p :: ts) := by
  cases ts with
  | nil => exact List.isChain_singleton _
  | cons t ts => exact List.isChain_cons_cons.2 ⟨.inl ⟨p, rfl⟩, h⟩

theorem apart_append {p : Punct} {ts us : List Token} (h : Apart ts)
    (hus : Apart (.punct p :: us)) : Apart (ts ++ .punct p :: us) := by
  refine List.isChain_append.2 ⟨h, hus, fun t _ u hu => .inr ⟨p, ?_⟩⟩
  exact (Option.some.inj hu).symm

/-- Tokens that begin with a mark stand apart behind any others. -/
def Marked (ts : List Token) : Prop := ∃ p us, ts = .punct p :: us ∧ Apart ts

theorem Marked.behind {ts us : List Token} (hus : Marked us) (hts : Apart ts) :
    Apart (ts ++ us) := by
  obtain ⟨p, us, rfl, h⟩ := hus
  exact apart_append hts h

theorem apart_text {s : Except Fault String} {ts : List Token} (h : Marked ts) :
    Apart (.text s :: ts) := by
  obtain ⟨p, us, rfl, h⟩ := h
  exact List.isChain_cons_cons.2 ⟨.inr ⟨p, rfl⟩, h⟩

mutual

theorem Tree.Whole.apart : ∀ {t : Tree}, t.Whole → Apart t.tokens
  | .null, _ | .bool _, _ | .number _, _ | .text _, _ => List.isChain_singleton _
  | .array _, h => apart_mark (Items.Whole.apart h).1
  | .object _, h => apart_mark (Members.Whole.apart h).1
  | .broken .., h => absurd h id

theorem Items.Whole.apart : ∀ {items : Items}, items.Whole →
    Apart items.tokens ∧ Marked items.more
  | .closed, _ => ⟨List.isChain_singleton _, _, _, rfl, List.isChain_singleton _⟩
  | .stopped _, h => absurd h id
  | .cons t rest, h => by
      have htokens : Apart (t.tokens ++ rest.more) :=
        (Items.Whole.apart h.2).2.behind (Tree.Whole.apart h.1)
      exact ⟨htokens, _, _, rfl, apart_mark htokens⟩

theorem Members.Whole.apart : ∀ {members : Members}, members.Whole →
    Apart members.tokens ∧ Marked members.more
  | .closed, _ => ⟨List.isChain_singleton _, _, _, rfl, List.isChain_singleton _⟩
  | .stopped .., h => absurd h id
  | .cons key t rest, h => by
      have hvalue : Apart (t.tokens ++ rest.more) :=
        (Members.Whole.apart h.2).2.behind (Tree.Whole.apart h.1)
      have htokens : Apart (.text key :: .punct .colon :: (t.tokens ++ rest.more)) :=
        apart_text ⟨_, _, rfl, apart_mark hvalue⟩
      exact ⟨htokens, _, _, rfl, apart_mark htokens⟩

end

theorem written_of_tokens {v : Json} {cs : List Char} (h : tokens cs = v.tree.tokens) :
    v.Written cs := by
  rw [Written, ← h]
  exact spells_tokens (h ▸ intact_tree v)

/-- Whatever is built in full from a text is a value exactly when the text is one of the
value's. -/
theorem build_tokens_iff {v : Json} {cs : List Char} :
    build .value [] (tokens cs) = (v.tree, []) ↔ v.Written cs := by
  constructor
  · intro h
    exact written_of_tokens ((tokens_of_build h (whole_tree v)).trans (List.append_nil _))
  · intro h
    have hbuild := build_tree v.tree [] [] (whole_tree v)
    rw [List.append_nil] at hbuild
    rw [tokens_spelled h (whole_tree v).apart, hbuild]
    rfl

end RequestLog.Json
