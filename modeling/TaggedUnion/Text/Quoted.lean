import TaggedUnion.Text.Hex
import TaggedUnion.Text.Hidden

/-!
# Quoted texts

A text between double quotes in which every character can be seen: quotes, backslashes and hidden
characters are written as escapes, and an escape by number has braces around lower-case hexadecimal
digits.
-/

namespace TaggedUnion.Text

/-- A character as it stands inside a quoted text. -/
def quotedChar (c : Char) : List Char :=
  if c = '\x00' then ['\\', '0']
  else if c = '\t' then ['\\', 't']
  else if c = '\r' then ['\\', 'r']
  else if c = '\n' then ['\\', 'n']
  else if c = '"' then ['\\', '"']
  else if c = '\\' then ['\\', '\\']
  else if isHidden c then ['\\', 'u', '\x7b'] ++ hexDigits c.toNat ++ ['\x7d']
  else [c]

/-- A text between double quotes. -/
def quoted (s : String) : String :=
  String.ofList ('"' :: s.toList.flatMap quotedChar ++ ['"'])

end TaggedUnion.Text
