import RequestLog.Decimal.Layout
import RequestLog.Text.Blank

/-!
# Addresses of servers

An address is a URL: a scheme, then who asks which host at which port, a path, and
pairs of a name and a value behind a question mark. Parts are given decoded: a
percent sign and two hexadecimal digits stand for a byte, and among the pairs a
plus sign stands for a blank.

Only addresses that begin with a scheme can be read. A scheme of the web needs a
host too, and so does whoever asks, and a port.
-/

namespace RequestLog.Text

structure Url where
  scheme : String
  user : Option String
  password : Option String
  host : String
  port : Option Nat
  path : String
  query : List (String × String)
  deriving DecidableEq, Inhabited

inductive Url.Fault where
  | noScheme
  | noHost
  | badPort
  | badHost
  | badNumericHost
  deriving DecidableEq

def Url.Fault.message : Url.Fault → String
  | .noScheme => "relative URL without a base"
  | .noHost => "empty host"
  | .badPort => "invalid port number"
  | .badHost => "invalid domain character"
  | .badNumericHost => "invalid IPv6 address"

/-! ## Decoding -/

def hexValue? (c : Char) : Option Nat :=
  if '0' ≤ c ∧ c ≤ '9' then some (c.toNat - '0'.toNat)
  else if 'a' ≤ c ∧ c ≤ 'f' then some (c.toNat - 'a'.toNat + 10)
  else if 'A' ≤ c ∧ c ≤ 'F' then some (c.toNat - 'A'.toNat + 10)
  else none

def unescaped : List Char → List UInt8
  | [] => []
  | '%' :: h :: l :: rest =>
      match hexValue? h, hexValue? l with
      | some a, some b => UInt8.ofNat (16 * a + b) :: unescaped rest
      | _, _ => '%'.toUInt8 :: unescaped (h :: l :: rest)
  | c :: rest => (String.singleton c).toUTF8.toList ++ unescaped rest

/-- The text that is meant; the bytes of no text are left as they were written. -/
def decoded (s : List Char) : String :=
  (String.fromUTF8? ⟨(unescaped s).toArray⟩).getD (String.ofList s)

/-- What stands before the first of some characters, and the rest from there on. -/
def upTo (stops : List Char) (s : List Char) : List Char × List Char :=
  s.span fun c => !stops.contains c

/-- What stands before and behind the first of a character, if it occurs. -/
def cut? (c : Char) (s : List Char) : Option (List Char × List Char) :=
  match upTo [c] s with
  | (before, _ :: after) => some (before, after)
  | (_, []) => none

/-- What stands before and behind the last of a character, if it occurs. -/
def cutLast? (c : Char) (s : List Char) : Option (List Char × List Char) :=
  (cut? c s.reverse).map fun (after, before) => (before.reverse, after.reverse)

def pair (s : List Char) : String × String :=
  let blanks := List.map fun c => if c = '+' then ' ' else c
  match cut? '=' s with
  | some (name, value) => (decoded (blanks name), decoded (blanks value))
  | none => (decoded (blanks s), "")

/-! ## Reading -/

namespace Url

/-- Schemes under which nothing can be reached without a host. -/
def webSchemes : List String := ["http", "https", "ws", "wss", "ftp"]

def scheme? (s : List Char) : Option (String × List Char) :=
  match cut? ':' s with
  | some (name, rest) =>
      let isLetter (c : Char) : Bool := c.isAlpha
      let inner (c : Char) : Bool := c.isAlphanum || c = '+' || c = '-' || c = '.'
      if name.head?.any isLetter && name.all inner then
        some ((String.ofList name).toLower, rest)
      else none
  | none => none

/-- A host; a number among the hosts stands in brackets when it has colons. -/
def readHost (s : List Char) : Except Fault String :=
  match s with
  | '[' :: rest =>
      if rest.getLast? = some ']' then .ok (String.ofList s) else .error .badNumericHost
  | s => if s.any " <>[\\]^|".toList.contains then .error .badHost else .ok (decoded s)

def readPort (s : List Char) : Except Fault (Option Nat) :=
  if s.isEmpty then .ok none
  else if s.all Char.isDigit && Decimal.spelled s < 65536 then .ok (some (Decimal.spelled s))
  else .error .badPort

/-- A host and a port; a colon inside of brackets belongs to the host. -/
def hostPort (s : List Char) : Except Fault (String × Option Nat) :=
  match cutLast? ':' s with
  | none => (readHost s).map (·, none)
  | some (host, port) =>
      if port.contains ']' then (readHost s).map (·, none)
      else if host.isEmpty then .error .noHost
      else do
        let host ← readHost host
        return (host, ← readPort port)

def parse (text : String) : Except Fault Url :=
  match scheme? (trim text.toList) with
  | none => .error .noScheme
  | some (scheme, rest) =>
      let (rest, _) := upTo ['#'] rest
      let (front, pairs) := upTo ['?'] rest
      let (authority, path) :=
        match after? ['/', '/'] front with
        | some s => upTo ['/'] s
        | none => ([], front)
      let (who, place) :=
        match cutLast? '@' authority with
        | some (who, place) => (some who, place)
        | none => (none, authority)
      let (user, password) :=
        match who.map fun w => (w, cut? ':' w) with
        | some (_, some (user, password)) => (some user, some password)
        | some (user, none) => (some user, none)
        | none => (none, none)
      match hostPort place with
      | .error f => .error f
      | .ok (host, port) =>
          if host.isEmpty && (who.isSome || webSchemes.contains scheme) then .error .noHost
          else .ok {
            scheme, host, port
            user := (user.map decoded).filter (!·.isEmpty)
            password := password.map decoded
            path := decoded path
            query := (splitAt '&' (pairs.drop 1)).filter (!·.isEmpty) |>.map pair }

end Url

end RequestLog.Text
