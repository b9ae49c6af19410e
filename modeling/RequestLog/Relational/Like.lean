/-!
# Matching a pattern

In a pattern a percent sign stands for any run of characters and an underscore for
any one of them; nothing takes that meaning away. Letters of ASCII match in either
case. Neither side is looked at beyond a NUL character.
-/

namespace RequestLog.Relational

/-- Whether two characters are the same but for the case of a letter of ASCII. -/
def sameLetter (c d : Char) : Bool := c.toLower == d.toLower

/-- What is left of a text when some of its front is taken off. -/
def suffixes : List Char → List (List Char)
  | [] => [[]]
  | c :: rest => (c :: rest) :: suffixes rest

def matchesPattern : List Char → List Char → Bool
  | [], text => text.isEmpty
  | '%' :: pattern, text => (suffixes text).any (matchesPattern pattern)
  | _ :: _, [] => false
  | '_' :: pattern, _ :: text => matchesPattern pattern text
  | c :: pattern, d :: text => sameLetter c d && matchesPattern pattern text

def visible (s : String) : List Char := s.toList.takeWhile (· ≠ '\x00')

def like (pattern text : String) : Bool := matchesPattern (visible pattern) (visible text)

def maxPatternSize : Nat := 50000

end RequestLog.Relational
