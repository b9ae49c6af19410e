import RequestLog.Json.Number

/-!
# Tokens of a JSON text

The text is cut into tokens before its structure is looked at. Cutting never
fails as a whole: a token that cannot be completed is a `broken` one and ends
the list, so that whoever reads the tokens in order meets the fault exactly
where the text has it.

A text is read in one of two ways. Reading a value wants its content; skipping
one only wants to know where it ends, is more lenient about content, and names
some faults differently. A `Break` holds both names. A number that is too large
and an escape that is half a surrogate pair spoil the content of a token but not
its extent, so such a token stands with a fault in place of its content.
-/

namespace RequestLog.Json

/-- A fault of the text, as it is named when reading and when skipping. -/
structure Break where
  reading : Fault
  skipping : Fault
  deriving BEq

def Break.both (f : Fault) : Break := ⟨f, f⟩

inductive Punct where
  | openArray | closeArray | openObject | closeObject | comma | colon
  deriving DecidableEq

inductive Start where
  | nothing
  | quote
  /-- The first letter of `null`. -/
  | null
  /-- A value was never reached, because the colon before it is missing. -/
  | noColon
  | other
  deriving DecidableEq

inductive Token where
  | punct (p : Punct)
  | null
  | bool (b : Bool)
  | number (n : Except Fault Number)
  | text (s : Except Fault String)
  | stray
  | broken (b : Break) (start : Start)

def punct? : Char → Option Punct
  | '[' => some .openArray
  | ']' => some .closeArray
  | '\x7b' => some .openObject
  | '\x7d' => some .closeObject
  | ',' => some .comma
  | ':' => some .colon
  | _ => none

def isSpace (c : Char) : Bool := c = ' ' || c = '\n' || c = '\t' || c = '\r'

/-! ## Texts -/

def hexValue? (c : Char) : Option Nat :=
  if c.isDigit then some (c.toNat - '0'.toNat)
  else if 'a' ≤ c && c ≤ 'f' then some (c.toNat - 'a'.toNat + 10)
  else if 'A' ≤ c && c ≤ 'F' then some (c.toNat - 'A'.toNat + 10)
  else none

def hex4? (a b c d : Char) : Option Nat := do
  let a ← hexValue? a
  let b ← hexValue? b
  let c ← hexValue? c
  let d ← hexValue? d
  return 4096 * a + 256 * b + 16 * c + d

def escape? : Char → Option Char
  | '"' => some '"'
  | '\\' => some '\\'
  | '/' => some '/'
  | 'b' => some '\x08'
  | 'f' => some '\x0c'
  | 'n' => some '\n'
  | 'r' => some '\r'
  | 't' => some '\t'
  | _ => none

inductive Scanned where
  | closed (content : Except Fault String) (rest : List Char)
  | broken (b : Break)

/--
Content so far, last character first, or the first fault in it. `leading` is a
surrogate that the next escape has to complete.
-/
structure Draft where
  content : Except Fault (List Char)
  leading : Option Nat

def Draft.empty : Draft := ⟨.ok [], none⟩

def Draft.spoil (f : Fault) (d : Draft) : Draft :=
  ⟨d.content.bind fun _ => .error f, none⟩

/-- A leading surrogate that is not completed at once spoils the content. -/
def Draft.settle (d : Draft) : Draft :=
  if d.leading.isSome then d.spoil .endOfHexEscape else d

def Draft.push (c : Char) (d : Draft) : Draft :=
  ⟨d.settle.content.map (c :: ·), none⟩

/-- The text cannot go on: a fault already in the content is the one read first. -/
def Draft.stop (f : Fault) (d : Draft) : Scanned :=
  match d.content with
  | .ok _ => .broken (.both f)
  | .error g => .broken ⟨g, f⟩

def Draft.close (d : Draft) (rest : List Char) : Scanned :=
  .closed (d.settle.content.map fun cs => String.ofList cs.reverse) rest

/-- Why no four hexadecimal digits can be read: too few bytes, or a wrong one. -/
def hexFault (cs : List Char) : Fault :=
  if (cs.take 4).foldl (fun n c => n + c.utf8Size) 0 < 4 then .endInText
  else .invalidEscape

def isLeading (n : Nat) : Bool := 0xD800 ≤ n && n ≤ 0xDBFF

def isTrailing (n : Nat) : Bool := 0xDC00 ≤ n && n ≤ 0xDFFF

def joined (hi lo : Nat) : Char :=
  Char.ofNat (0x10000 + 1024 * (hi - 0xD800) + (lo - 0xDC00))

def Draft.unit (n : Nat) (d : Draft) : Draft :=
  match d.leading with
  | some hi =>
      if isTrailing n then ⟨d.content.map (joined hi n :: ·), none⟩
      else d.spoil .loneSurrogate
  | none =>
      if isTrailing n then d.spoil .loneSurrogate
      else if isLeading n then ⟨d.content, some n⟩
      else d.push (Char.ofNat n)

def scanText : List Char → Draft → Scanned
  | [], t => t.settle.stop .endInText
  | '"' :: rest, t => t.close rest
  | '\\' :: 'u' :: a :: b :: c :: d :: rest, t =>
      match hex4? a b c d with
      | some n => scanText rest (t.unit n)
      | none => t.stop .invalidEscape
  | '\\' :: 'u' :: short, t => t.stop (hexFault short)
  | '\\' :: c :: rest, t =>
      match escape? c with
      | some e => scanText rest (t.push e)
      | none => t.settle.stop .invalidEscape
  | ['\\'], t => t.settle.stop .endInText
  | c :: rest, t =>
      if c.toNat < 0x20 then t.settle.stop .controlCharacter
      else scanText rest (t.push c)

theorem Draft.stop_ne_closed (f : Fault) (d : Draft) (s : Except Fault String)
    (rest : List Char) : d.stop f ≠ .closed s rest := by
  simp only [Draft.stop]
  split <;> simp

theorem scanText_length {cs : List Char} {t : Draft} {s : Except Fault String}
    {rest : List Char} (h : scanText cs t = .closed s rest) :
    rest.length < cs.length := by
  fun_induction scanText cs t <;>
    simp_all [Draft.stop_ne_closed, Draft.close] <;> omega

/-! ## Words and numbers -/

def scanWord : List Char → List Char → Except Fault (List Char)
  | [], rest => .ok rest
  | _ :: _, [] => .error .endInValue
  | w :: ws, c :: rest => if c = w then scanWord ws rest else .error .expectedWord

theorem scanWord_length {ws cs rest : List Char} (h : scanWord ws cs = .ok rest) :
    rest.length ≤ cs.length := by
  induction ws generalizing cs with
  | nil => simp [scanWord] at h; simp [h]
  | cons w ws ih =>
    cases cs with
    | nil => simp [scanWord] at h
    | cons c cs =>
      simp only [scanWord] at h
      split at h
      · have := ih h; simp; omega
      · simp at h

theorem length_dropWhile_le (p : Char → Bool) (cs : List Char) :
    (cs.dropWhile p).length ≤ cs.length :=
  (List.dropWhile_sublist p).length_le

theorem scanWhole_length {cs ds rest : List Char}
    (h : scanWhole cs = .ok (ds, rest)) : rest.length < cs.length := by
  have split_ : cs.takeWhile Char.isDigit ++ cs.dropWhile Char.isDigit = cs :=
    List.takeWhile_append_dropWhile
  simp only [scanWhole] at h
  split at h
  · simp at h
  · simp at h
  · next hne _ =>
    simp only [Except.ok.injEq, Prod.mk.injEq] at h
    rw [← h.2]
    have : (cs.takeWhile Char.isDigit).length ≠ 0 := by
      simpa [List.length_eq_zero_iff] using hne
    have := congrArg List.length split_
    simp only [List.length_append] at this
    omega

theorem scanFraction_length {cs rest : List Char} {o : Option (List Char)}
    (h : scanFraction cs = .ok (o, rest)) : rest.length ≤ cs.length := by
  simp only [scanFraction] at h
  split at h
  · next more =>
    split at h
    · simp at h
    · simp only [Except.ok.injEq, Prod.mk.injEq] at h
      rw [← h.2]
      have := length_dropWhile_le Char.isDigit more
      simp; omega
  · simp at h; simp [h.2]

theorem length_splitSign_le (cs : List Char) :
    (Decimal.splitSign cs).2.length ≤ cs.length := by
  simp only [Decimal.splitSign]
  split <;> simp

theorem scanExponent_length {cs rest : List Char} {o : Option (Bool × List Char)}
    (h : scanExponent cs = .ok (o, rest)) : rest.length ≤ cs.length := by
  simp only [scanExponent] at h
  split at h
  · next c more =>
    split at h
    · split at h
      · simp at h
      · simp only [Except.ok.injEq, Prod.mk.injEq] at h
        rw [← h.2]
        have := length_dropWhile_le Char.isDigit (Decimal.splitSign more).2
        have := length_splitSign_le more
        simp; omega
    · simp at h; simp [← h.2]
  · simp at h; simp [← h.2]

theorem scanUnsigned_length {negative : Bool} {cs rest : List Char} {l : Literal}
    (h : scanUnsigned negative cs = .ok (l, rest)) : rest.length < cs.length := by
  simp only [scanUnsigned] at h
  split at h
  · simp at h
  · next hw =>
    split at h
    · simp at h
    · next hf =>
      split at h
      · simp at h
      · next he =>
        simp only [Except.ok.injEq, Prod.mk.injEq] at h
        have := scanWhole_length hw
        have := scanFraction_length hf
        have := scanExponent_length he
        rw [← h.2]; omega

theorem scanNumber_length {cs rest : List Char} {l : Literal}
    (h : scanNumber cs = .ok (l, rest)) : rest.length < cs.length := by
  simp only [scanNumber] at h
  split at h
  · have := scanUnsigned_length h; simp; omega
  · exact scanUnsigned_length h

/-! ## The cut -/

def wordToken (t : Token) (start : Start) (word rest : List Char) :
    Token × List Char :=
  match scanWord word rest with
  | .ok rest => (t, rest)
  | .error f => (.broken (.both f) start, [])

/-- The token that starts with a character, and what is left after it. -/
def nextToken (c : Char) (rest : List Char) : Token × List Char :=
  match punct? c with
  | some p => (.punct p, rest)
  | none =>
      if c = '"' then
        match scanText rest .empty with
        | .closed s rest => (.text s, rest)
        | .broken b => (.broken b .quote, [])
      else if c = 'n' then wordToken .null .null ['u', 'l', 'l'] rest
      else if c = 't' then wordToken (.bool true) .other ['r', 'u', 'e'] rest
      else if c = 'f' then wordToken (.bool false) .other ['a', 'l', 's', 'e'] rest
      else if c = '-' || c.isDigit then
        match scanNumber (c :: rest) with
        | .ok (l, rest) => (.number l.value, rest)
        | .error f => (.broken ⟨f, .invalidNumber⟩ .other, [])
      else (.stray, rest)

theorem wordToken_length (t : Token) (start : Start) (word rest : List Char) :
    (wordToken t start word rest).2.length ≤ rest.length := by
  simp only [wordToken]
  split
  · next h => exact scanWord_length h
  · simp

theorem nextToken_length (c : Char) (rest : List Char) :
    (nextToken c rest).2.length ≤ rest.length := by
  simp only [nextToken]
  split
  · exact Nat.le_refl _
  · split
    · split
      · next h => exact Nat.le_of_lt (scanText_length h)
      · simp
    · split
      · exact wordToken_length ..
      · split
        · exact wordToken_length ..
        · split
          · exact wordToken_length ..
          · split
            · split
              · next h => have := scanNumber_length h; simp at this; simp; omega
              · simp
            · exact Nat.le_refl _

/-- Tokens of a text, behind those already cut, which are given last one first. -/
def tokensAfter : List Token → List Char → List Token
  | done, [] => done.reverse
  | done, c :: rest =>
      if isSpace c then tokensAfter done rest
      else tokensAfter ((nextToken c rest).1 :: done) (nextToken c rest).2
termination_by _ cs => cs.length
decreasing_by
  · simp
  · have := nextToken_length c rest; simp; omega

/-- The tokens of a text up to its end or to the first broken one. -/
def tokens (text : List Char) : List Token := tokensAfter [] text

end RequestLog.Json
