import RequestLog.Proofs.Filter.Range
import RequestLog.Proofs.Filter.Unbounded

/-!
# The limits of a request, and the kinds of its operands

What comes out of the parser is no longer, no deeper and no more inverted than a request
may be, and every operand is of a form that its column can have (`Kind.Holds`). The other
way around a filter that is too deep does not come out. Its depth is found when the
operands are read, from the root down and from left to right, so an operand that cannot
be read may be found first; where all of them can, the depth is what is complained about.
-/

namespace RequestLog

/-! ## Operands that a column can have -/

/-- An operand that is not a list. Only a column of instants has instants, and it has no
numbers and no texts. -/
inductive Kind.HoldsOne (kind : Kind) : Scalar → Prop
  | null : kind.HoldsOne .null
  | bool (b : Bool) : kind.HoldsOne (.bool b)
  | timestamp (t : Instant) : kind = .timestamp → kind.HoldsOne (.timestamp t)
  | int (i : Int) : kind ≠ .timestamp → kind.HoldsOne (.int i)
  | float (x : Float) : kind ≠ .timestamp → kind.HoldsOne (.float x)
  | text (s : String) : kind ≠ .timestamp → kind.HoldsOne (.text s)

inductive Kind.Holds (kind : Kind) : Scalar → Prop
  | one {x : Scalar} : kind.HoldsOne x → kind.Holds x
  | list {xs : List Scalar} : (∀ x ∈ xs, kind.HoldsOne x) → kind.Holds (.list xs)

namespace Filter

variable {field : String} {kind : Kind} {v : Json} {x : Scalar}

theorem holdsOne_of_number {n : Json.Number} (h : numberOperand field kind n = .ok x) :
    kind.HoldsOne x := by
  cases kind with
  | timestamp =>
      simp only [numberOperand] at h
      split at h
      · cases h; exact .timestamp _ rfl
      · cases h
  | float => cases h; exact .float _ (by decide)
  | bool | int | text =>
      simp only [numberOperand] at h
      split at h
      · cases h; exact .int _ (by decide)
      · cases h; exact .float _ (by decide)

theorem holdsOne_of_text {s : String} (h : textOperand field kind s = .ok x) :
    kind.HoldsOne x := by
  cases kind with
  | timestamp =>
      simp only [textOperand] at h
      split at h
      · cases h; exact .timestamp _ rfl
      · cases h
  | bool | int | float | text => cases h; exact .text s (by decide)

theorem holdsOne_of_single (h : singleOperand field kind v = .ok x) : kind.HoldsOne x := by
  cases v with
  | null => cases h; exact .null
  | bool b => cases h; exact .bool b
  | number n => exact holdsOne_of_number h
  | text s => exact holdsOne_of_text h
  | array | object => cases h

theorem holds_of_operand (h : operand field kind v = .ok x) : kind.Holds x := by
  unfold operand at h
  split at h
  · obtain ⟨xs, hxs, rfl⟩ := ok_of_map h
    have hall := forall₂_of_mapM hxs
    clear hxs h
    refine .list fun x hx => ?_
    induction hall with
    | nil => cases hx
    | cons hy _ ih =>
        rcases List.mem_cons.1 hx with rfl | hx
        · exact holdsOne_of_single hy
        · exact ih hx
  · exact .one (holdsOne_of_single h)

end Filter

namespace RequestBody

open Json

/-! ## Levels -/

theorem Means.holds {w : FilterOf Json} {f : Filter} (h : Means w f) :
    ∀ l ∈ f.leaves, l.column.kind.Holds l.value := by
  induction h with
  | all => exact nofun
  | leaf hoperand => exact List.forall_mem_singleton.2 (Filter.holds_of_operand hoperand)
  | branch _ _ ihleft ihright => exact List.forall_mem_append.2 ⟨ihleft, ihright⟩

theorem Means.depth_eq {w : FilterOf Json} {f : Filter} (h : Means w f) :
    f.depth = w.depth := by
  induction h with
  | all | leaf => rfl
  | branch _ _ ihleft ihright => rw [FilterOf.depth, FilterOf.depth, ihleft, ihright]

theorem le_of_checkLevel {level : Nat} {u : Unit} (h : checkLevel level = .ok u) :
    level ≤ maxDepth := by
  rw [checkLevel] at h
  split at h
  · cases h
  · next hle => exact Nat.not_lt.1 hle

/-- A tree that is resolved lies within the limit, whatever level it begins at. -/
theorem means_of_resolve {w : FilterOf Json} {level : Nat} {f : Filter}
    (h : resolveFilter level w = .ok f) : Means w f ∧ level + f.depth ≤ maxDepth + 1 := by
  induction w generalizing level f with
  | all =>
      obtain ⟨_, hlevel, h⟩ := ok_of_bind h
      cases h
      exact ⟨.all, Nat.succ_le_succ (le_of_checkLevel hlevel)⟩
  | leaf l =>
      obtain ⟨_, hlevel, h⟩ := ok_of_bind h
      obtain ⟨x, hx, h⟩ := ok_of_bind h
      cases h
      exact ⟨.leaf hx, Nat.succ_le_succ (le_of_checkLevel hlevel)⟩
  | branch left right op ihleft ihright =>
      obtain ⟨_, -, h⟩ := ok_of_bind h
      obtain ⟨l, hl, h⟩ := ok_of_bind h
      obtain ⟨r, hr, h⟩ := ok_of_bind h
      cases h
      obtain ⟨hleft, hleftLevel⟩ := ihleft hl
      obtain ⟨hright, hrightLevel⟩ := ihright hr
      refine ⟨.branch hleft hright, ?_⟩
      rw [FilterOf.depth]
      omega

def tooDeep : FilterError := .invalidShape s!"filter nesting exceeds {maxDepth} levels"

theorem checkLevel_error {level : Nat} (h : maxDepth < level) :
    checkLevel level = .error tooDeep := if_pos h

/-- A tree that goes below the last level is refused for that, if nothing else is wrong. -/
theorem resolveFilter_tooDeep {w : FilterOf Json} {f : Filter} (h : Means w f) {level : Nat}
    (hdeep : maxDepth + 1 < level + f.depth) : resolveFilter level w = .error tooDeep := by
  induction h generalizing level with
  | all =>
      rw [FilterOf.depth] at hdeep
      simp only [resolveFilter, checkLevel_error (by omega : maxDepth < level), bind, Except.bind]
  | leaf hoperand =>
      rw [FilterOf.depth] at hdeep
      simp only [resolveFilter, checkLevel_error (by omega : maxDepth < level), bind, Except.bind]
  | @branch left right l r op hleft hright ihleft ihright =>
      rw [FilterOf.depth] at hdeep
      by_cases hlevel : level ≤ maxDepth
      · by_cases hleftLevel : level + 1 + l.depth ≤ maxDepth + 1
        · have hl := resolveFilter_means hleft hleftLevel
          have hr : resolveFilter (level + 1) right = .error tooDeep := ihright (by omega)
          simp only [resolveFilter, checkLevel_ok hlevel, hl, hr, bind, Except.bind]
        · have hl : resolveFilter (level + 1) left = .error tooDeep := ihleft (by omega)
          simp only [resolveFilter, checkLevel_ok hlevel, hl, bind, Except.bind]
      · simp only [resolveFilter, checkLevel_error (Nat.not_le.1 hlevel), bind, Except.bind]

/-! ## Requests that are accepted -/

theorem ofWire_ok {w : Wire} {body : RequestBody} (h : ofWire w = .ok body) :
    match w.filter with
    | none => body.filter = .all
    | some node => resolveFilter 1 node = .ok body.filter := by
  obtain ⟨filter, range⟩ := w
  cases range with
  | none => cases h
  | some ends =>
      obtain ⟨start, -, h⟩ := ok_of_bind h
      obtain ⟨stop, -, h⟩ := ok_of_bind h
      obtain ⟨r, -, h⟩ := ok_of_bind h
      cases filter with
      | none => cases h; rfl
      | some node =>
          obtain ⟨f, hf, h⟩ := ok_of_bind h
          cases h
          exact hf

theorem parse_ok {text : String} {body : RequestBody} (h : parse text = .ok body) :
    text.utf8ByteSize ≤ maxBytes ∧ ∃ w, decodeWire text = .ok w ∧ ofWire w = .ok body := by
  unfold parse at h
  split at h
  · cases h
  · next hsize =>
      split at h
      · cases h
      · next w hw => exact ⟨Nat.not_lt.1 hsize, w, hw, h⟩

/-- The filter of an accepted request is within the limit, and its operands suit. -/
theorem filter_of_ofWire {w : Wire} {body : RequestBody} (h : ofWire w = .ok body) :
    body.filter.depth ≤ maxDepth ∧
      ∀ l ∈ body.filter.leaves, l.column.kind.Holds l.value := by
  have hfilter := ofWire_ok h
  split at hfilter
  · rw [hfilter]
    exact ⟨by decide, nofun⟩
  · obtain ⟨hmeans, hlevel⟩ := means_of_resolve hfilter
    exact ⟨by omega, hmeans.holds⟩

/-! ## The limits -/

theorem exists_means {w : FilterOf Json} (h : ∀ l ∈ w.leaves, Converts l) :
    ∃ f, Means w f := by
  induction w with
  | all => exact ⟨.all, .all⟩
  | leaf l =>
      obtain ⟨x, hx⟩ := h l (List.mem_singleton_self l)
      exact ⟨_, .leaf hx⟩
  | branch left right op ihleft ihright =>
      obtain ⟨hleft, hright⟩ := List.forall_mem_append.1 h
      obtain ⟨l, hl⟩ := ihleft hleft
      obtain ⟨r, hr⟩ := ihright hright
      exact ⟨_, .branch hl hr⟩

/-- An accepted request is within its limits, and every operand suits its column. A request
whose filter is too deep is refused, and for its shape if nothing else is wrong with it. -/
theorem parse_limits (text : String) :
    (∀ body, parse text = .ok body →
      text.utf8ByteSize ≤ 65536 ∧ body.filter.depth ≤ 32 ∧
      (body.range.start.seconds < body.range.stop.seconds ∨
        body.range.start.seconds = body.range.stop.seconds ∧
          body.range.start.nanos ≤ body.range.stop.nanos) ∧
      ∀ l ∈ body.filter.leaves, l.column.kind.Holds l.value) ∧
    ∀ v w f, v.Written text.toList → IsBody w v → w.filter = some f → 32 < f.depth →
      (∃ e, parse text = .error e) ∧
      ∀ start stop s e, w.range = some (start, stop) →
        start.resolve "timeFilter.start" = .ok s → stop.resolve "timeFilter.end" = .ok e →
        s.le e = true → (∀ l ∈ f.leaves, Converts l) →
        ∃ message, parse text = .error (.invalidShape message) := by
  constructor
  · intro body h
    obtain ⟨hsize, w, -, hw⟩ := parse_ok h
    obtain ⟨hdepth, hholds⟩ := filter_of_ofWire hw
    exact ⟨hsize, hdepth, Instant.le_iff.1 body.range.ordered, hholds⟩
  · intro v w f htext hbody hfilter hdeep
    have hrefused : ∀ body, parse text ≠ .ok body := by
      intro body h
      obtain ⟨-, w', hread, hw'⟩ := parse_ok h
      obtain ⟨-, g, hg, hdepth, -⟩ := decodeWire_isBody htext hbody hfilter hread
      have hresolve := ofWire_ok hw'
      rw [hg] at hresolve
      obtain ⟨hmeans, hlevel⟩ := means_of_resolve hresolve
      rw [hmeans.depth_eq, hdepth, maxDepth] at hlevel
      omega
    refine ⟨?_, fun start stop s e hrange hs he hle hconverts => ?_⟩
    · cases h : parse text with
      | error e => exact ⟨e, rfl⟩
      | ok body => exact absurd h (hrefused body)
    · unfold parse
      by_cases hlong : maxBytes < text.utf8ByteSize
      · exact ⟨_, if_pos hlong⟩
      · rw [if_neg hlong]
        cases hread : decodeWire text with
        | error fault => exact ⟨_, rfl⟩
        | ok w' =>
            obtain ⟨hends, g, hg, -, heq⟩ := decodeWire_isBody htext hbody hfilter hread
            obtain rfl := heq hconverts
            obtain ⟨F, hmeans⟩ := exists_means hconverts
            have hlevel : maxDepth + 1 < 1 + F.depth := by
              rw [hmeans.depth_eq, maxDepth]
              omega
            have hends := hends _ hrange
            have hrange : TimeRange.ofEnds s e = .ok ⟨s, e, hle⟩ := dif_pos hle
            refine ⟨s!"filter nesting exceeds {maxDepth} levels", ?_⟩
            simp only [ofWire, hends, hg, hs, he, hrange, resolveFilter_tooDeep hmeans hlevel,
              bind, Except.bind]
            rfl

/-! ## One level too many -/

/-- A name between its quotes. -/
def nameChars (name : String) : List Char := '"' :: (name.toList ++ ['"'])

theorem word_name {name : String} (h : name.toList.all isPlain = true) :
    Word (.text (.ok name)) (nameChars name) := by
  have hplain : ∀ cs : List Char, cs.all isPlain = true → SpelledText cs cs := by
    intro cs
    induction cs with
    | nil => exact fun _ => .nil
    | cons c cs ih =>
        intro hcs
        rw [List.all_cons, Bool.and_eq_true] at hcs
        exact .plain hcs.1 (ih hcs.2)
  exact .text (hplain _ h)

theorem spells_name {name : String} {ts : List Token} {cs : List Char}
    (hname : name.toList.all isPlain = true) (h : Spells ts cs) :
    Spells (.text (.ok name) :: ts) (nameChars name ++ cs) :=
  .word (word_name hname) h

theorem spells_punct {p : Punct} {c : Char} {ts : List Token} {cs : List Char}
    (hc : punct? c = some p) (h : Spells ts cs) : Spells (.punct p :: ts) (c :: cs) :=
  .word (.punct hc) h

/-- Branches to the left, one inside of the other. -/
def leftmost : Nat → FilterOf Json
  | 0 => .all
  | n + 1 => .branch (leftmost n) .all .and

def leftmostJson : Nat → Json
  | 0 => .text "all"
  | n + 1 => .object [("branch", .object [("left", leftmostJson n), ("right", .text "all"),
      ("operator", .text "and")])]

def leftmostChars : Nat → List Char
  | 0 => nameChars "all"
  | n + 1 => '\x7b' :: (nameChars "branch" ++ ':' :: '\x7b' :: (nameChars "left" ++ ':' ::
      (leftmostChars n ++ ',' :: (nameChars "right" ++ ':' :: (nameChars "all" ++ ',' ::
        (nameChars "operator" ++ ':' :: (nameChars "and" ++ ['\x7d', '\x7d'])))))))

theorem leftmost_depth (n : Nat) : (leftmost n).depth = n + 1 := by
  induction n with
  | zero => rfl
  | succ n ih =>
      rw [leftmost, FilterOf.depth, ih, FilterOf.depth]
      omega

theorem leftmost_converts (n : Nat) : ∀ l ∈ (leftmost n).leaves, Converts l := by
  induction n with
  | zero => exact nofun
  | succ n ih => exact List.forall_mem_append.2 ⟨ih, nofun⟩

theorem leftmost_isNode (n : Nat) : IsNode (leftmost n) (leftmostJson n) := by
  induction n with
  | zero => exact .all .text
  | succ n ih =>
      refine .branch (.object ?_ ?_) rfl ih rfl (.all .text) ⟨"and", _, rfl, rfl, .text⟩
      · simp
      · simp

theorem leftmost_spells (n : Nat) {ts : List Token} {cs : List Char} (h : Spells ts cs) :
    Spells ((leftmostJson n).tree.tokens ++ ts) (leftmostChars n ++ cs) := by
  induction n generalizing ts cs with
  | zero => exact spells_name (by decide) h
  | succ n ih =>
      have htokens : (leftmostJson (n + 1)).tree.tokens ++ ts =
          .punct .openObject :: .text (.ok "branch") :: .punct .colon ::
            .punct .openObject :: .text (.ok "left") :: .punct .colon ::
              ((leftmostJson n).tree.tokens ++ .punct .comma :: .text (.ok "right") ::
                .punct .colon :: .text (.ok "all") :: .punct .comma ::
                  .text (.ok "operator") :: .punct .colon :: .text (.ok "and") ::
                    .punct .closeObject :: .punct .closeObject :: ts) := by
        simp [leftmostJson, tree, membersOf, Tree.tokens, Members.tokens, Members.more]
      have hchars : leftmostChars (n + 1) ++ cs =
          '\x7b' :: (nameChars "branch" ++ ':' :: '\x7b' :: (nameChars "left" ++ ':' ::
            (leftmostChars n ++ ',' :: (nameChars "right" ++ ':' :: (nameChars "all" ++ ',' ::
              (nameChars "operator" ++ ':' :: (nameChars "and" ++
                '\x7d' :: '\x7d' :: cs))))))) := by
        simp [leftmostChars]
      rw [htokens, hchars]
      refine spells_punct rfl (spells_name (by decide) (spells_punct rfl (spells_punct rfl
        (spells_name (by decide) (spells_punct rfl (ih ?_))))))
      refine spells_punct rfl (spells_name (by decide) (spells_punct rfl
        (spells_name (by decide) (spells_punct rfl (spells_name (by decide) ?_)))))
      exact spells_punct rfl (spells_name (by decide) (spells_punct rfl (spells_punct rfl h)))

/-- A request about the first second. -/
def leftmostBody (n : Nat) : Json :=
  .object [("filter", leftmostJson n),
    ("timeFilter", .object [("start", .number (.int 0)), ("end", .number (.int 1000))])]

def leftmostText (n : Nat) : String :=
  String.ofList ('\x7b' :: (nameChars "filter" ++ ':' :: (leftmostChars n ++ ',' ::
    (nameChars "timeFilter" ++ ':' :: '\x7b' :: (nameChars "start" ++ ':' :: '0' :: ',' ::
      (nameChars "end" ++ ':' :: (['1', '0', '0', '0'] ++ ['\x7d', '\x7d'])))))))

theorem leftmostText_written (n : Nat) :
    (leftmostBody n).Written (leftmostText n).toList := by
  have htokens : (leftmostBody n).tree.tokens =
      .punct .openObject :: .text (.ok "filter") :: .punct .colon ::
        ((leftmostJson n).tree.tokens ++ .punct .comma :: .text (.ok "timeFilter") ::
          .punct .colon :: .punct .openObject :: .text (.ok "start") :: .punct .colon ::
            .number (.ok (.int 0)) :: .punct .comma :: .text (.ok "end") :: .punct .colon ::
              .number (.ok (.int 1000)) :: [.punct .closeObject, .punct .closeObject]) := by
    simp [leftmostBody, tree, membersOf, Tree.tokens, Members.tokens, Members.more]
  have hzero : Word (.number (.ok (.int 0))) ['0'] := word_int (by decide)
  have hthousand : Word (.number (.ok (.int 1000))) ['1', '0', '0', '0'] :=
    word_int (by decide)
  rw [Written, htokens, leftmostText, String.toList_ofList]
  refine spells_punct rfl (spells_name (by decide) (spells_punct rfl (leftmost_spells n ?_)))
  refine spells_punct rfl (spells_name (by decide) (spells_punct rfl (spells_punct rfl
    (spells_name (by decide) (spells_punct rfl (.word hzero ?_))))))
  refine spells_punct rfl (spells_name (by decide) (spells_punct rfl (.word hthousand ?_)))
  exact spells_punct rfl (spells_punct rfl .nil)

theorem leftmostBody_isBody (n : Nat) :
    IsBody ⟨some (leftmost n), some (.millis 0, .millis 1000)⟩ (leftmostBody n) := by
  have hrange : IsRange (.millis 0, .millis 1000)
      (.object [("start", .number (.int 0)), ("end", .number (.int 1000))]) :=
    .mk (.object (by simp) (by simp)) rfl (.millis rfl) rfl (.millis rfl)
  exact .mk (.object (by simp) (by simp)) (.given rfl (leftmost_isNode n)) (.given rfl hrange)

/-- A request that is accepted lies within the limits, and one whose filter has 33 levels
is refused for its shape. -/
theorem leftmostText_refused :
    parse leapText = .ok leapBody ∧ leapText.utf8ByteSize ≤ 65536 ∧
      leapBody.filter.depth ≤ 32 ∧
      ∃ message, parse (leftmostText 32) = .error (.invalidShape message) := by
  obtain ⟨hsize, hdepth, -, -⟩ := (parse_limits leapText).1 leapBody parse_leapText
  have hdeep : 32 < (leftmost 32).depth := by
    rw [leftmost_depth]
    decide
  obtain ⟨-, hshape⟩ := (parse_limits (leftmostText 32)).2 _ _ _ (leftmostText_written 32)
    (leftmostBody_isBody 32) rfl hdeep
  exact ⟨parse_leapText, hsize, hdepth,
    hshape _ _ ⟨0, 0⟩ ⟨1, 0⟩ rfl rfl rfl (by decide) (leftmost_converts 32)⟩

end RequestBody

end RequestLog
