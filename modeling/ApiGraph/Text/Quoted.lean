import ApiGraph.Text.Unprintable

/-!
# Quoted text

`quoted s` spells a text between double quotes the way diagnostics show it: the
usual backslash escapes, and a hexadecimal number in braces for a character
without a picture of its own. A single quote needs no escape.
-/

namespace ApiGraph.Text

def quotedChar (c : Char) : List Char :=
  if c = '\x00' then ['\\', '0']
  else if c = '\t' then ['\\', 't']
  else if c = '\n' then ['\\', 'n']
  else if c = '\r' then ['\\', 'r']
  else if c = '"' then ['\\', '"']
  else if c = '\\' then ['\\', '\\']
  else if isUnprintable c then
    ['\\', 'u', '\x7b'] ++ Nat.toDigits 16 c.toNat ++ ['\x7d']
  else [c]

def quoted (s : String) : String :=
  String.ofList ('"' :: s.toList.flatMap quotedChar ++ ['"'])

end ApiGraph.Text
