import RequestLog.Text.Hidden

/-!
# Texts quoted in messages

A message shows a foreign text between double quotes, so that its ends are
visible, with quote, backslash and the common controls escaped by a backslash
and every other hidden character by its code point in hexadecimal.
-/

namespace RequestLog.Text

def quotedChar (c : Char) : List Char :=
  if c = '"' then ['\\', '"']
  else if c = '\\' then ['\\', '\\']
  else if c = '\n' then ['\\', 'n']
  else if c = '\r' then ['\\', 'r']
  else if c = '\t' then ['\\', 't']
  else if c = '\x00' then ['\\', '0']
  else if isHidden c then
    ['\\', 'u', '\x7b'] ++ Nat.toDigits 16 c.toNat ++ ['\x7d']
  else [c]

def quoted (s : String) : String :=
  String.ofList ('"' :: s.toList.flatMap quotedChar ++ ['"'])

end RequestLog.Text
