import RequestLog.Json.Token

/-!
# Texts that come as bytes

What a server answers is bytes, and nothing says that they are a text. The bytes are taken
for characters as far as they are UTF-8. From the first one on that is not, no value can be
read any more: outside of quotes there is no token, and a text between quotes is found to be
none once its end is reached. So bytes are cut into tokens up to the one that takes the first
bad byte, and this one is spoiled.

Which characters stand for the bytes from there on matters only to where the quotes end, and
to that every byte counts that is a character of its own.
-/

namespace RequestLog.Json

/-- The character that some bytes begin with. None is longer than four bytes. -/
def firstChar? (bytes : List UInt8) : Option Char :=
  (bytes.take 4).toByteArray.utf8DecodeChar? 0

/-- A character in the place of a byte: its own if it has one, else one without a meaning. -/
def standIn (b : UInt8) : Char := if b < 128 then Char.ofNat b.toNat else '\x7f'

/-- Characters for some bytes, and how many of the last ones only stand in for bytes. -/
def characters (bytes : List UInt8) : List Char × Nat :=
  match bytes with
  | [] => ([], 0)
  | b :: rest =>
      match firstChar? (b :: rest) with
      | none => ((b :: rest).map standIn, rest.length + 1)
      | some c =>
          let behind := characters (rest.drop (c.utf8Size - 1))
          (c :: behind.1, behind.2)
termination_by bytes.length
decreasing_by
  simp only [List.length_drop, List.length_cons]
  omega

/-- A text that takes something else than characters is none. -/
def Token.spoil : Token → Token
  | .text s => .text (s.bind fun _ => .error .invalidCodePoint)
  | t => t

/-- Tokens of a text, up to the one that reaches into its last `bad` characters. -/
def tokensUntil (bad : Nat) : List Char → List Token
  | [] => []
  | c :: rest =>
      if isSpace c then tokensUntil bad rest
      else
        let cut := nextToken c rest
        if bad ≠ 0 && cut.2.length < bad then [cut.1.spoil]
        else cut.1 :: tokensUntil bad cut.2
termination_by cs => cs.length
decreasing_by
  · simp
  · have := nextToken_length c rest
    simp only [List.length_cons]
    omega

def tokensOfBytes (bytes : List UInt8) : List Token :=
  let text := characters bytes
  tokensUntil text.2 text.1

end RequestLog.Json
