import Columnar.Text.Unprintable

/-!
# `Columnar.Text.Quoted` — texts between quotes, for people

Inside the quotes, a quote and a backslash stand behind a backslash, four control characters are written by
a letter or a zero, and other characters without a glyph by their number.
-/

namespace Columnar.Text

/-- A character between quotes. -/
def shown (c : Char) : List Char :=
  if c = '"' then ['\\', '"']
  else if c = '\\' then ['\\', '\\']
  else if c = '\x00' then ['\\', '0']
  else if c = '\t' then ['\\', 't']
  else if c = '\n' then ['\\', 'n']
  else if c = '\r' then ['\\', 'r']
  else if isUnprintable c then
    '\\' :: 'u' :: '\x7b' :: Nat.toDigits 16 c.toNat ++ ['\x7d']
  else [c]

/-- A text between quotes. -/
def quoted (s : String) : String := String.ofList ('"' :: s.toList.flatMap shown ++ ['"'])

end Columnar.Text
