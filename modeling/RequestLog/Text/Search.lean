/-!
# Where a text occurs in another

Every search in the library is for a fixed needle and is sensitive to case.
`position?` counts characters from one and is the only search: whether a needle
occurs, and whether it stands at the front, are read off it or off
`List.isPrefixOf`. An empty needle occurs at the front of every text.
-/

namespace RequestLog.Text

/-- One-based place of the first occurrence of `needle`. -/
def position? (needle : List Char) : List Char → Option Nat
  | [] => if needle.isEmpty then some 1 else none
  | c :: rest =>
      if needle.isPrefixOf (c :: rest) then some 1
      else (position? needle rest).map (· + 1)

def occurs (needle text : String) : Bool :=
  (position? needle.toList text.toList).isSome

def startsWith (start text : String) : Bool :=
  start.toList.isPrefixOf text.toList

/-- What follows `start`, when the text begins with it. -/
def after? (start : List Char) (text : List Char) : Option (List Char) :=
  if start.isPrefixOf text then some (text.drop start.length) else none

/-- The last occurrence of `needle`, with all that follows it. -/
def lastFrom? (needle : List Char) : List Char → Option (List Char)
  | [] => none
  | c :: rest =>
      match lastFrom? needle rest with
      | some found => some found
      | none => if needle.isPrefixOf (c :: rest) then some (c :: rest) else none

def splitAt (sep : Char) : List Char → List (List Char)
  | [] => [[]]
  | c :: rest =>
      if c = sep then [] :: splitAt sep rest
      else match splitAt sep rest with
        | [] => [[c]]
        | p :: ps => (c :: p) :: ps

end RequestLog.Text
