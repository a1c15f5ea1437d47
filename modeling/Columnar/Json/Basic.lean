import Columnar.Binary.Shortest

/-!
# `Columnar.Json.Basic` — documents

## Contents
- `Json`: a document as data, the members of an object in order.
- `Json.quoted`: a text between quotes, with what needs an escape escaped.
- `Json.chars`, `Json.text`: a document written without white space.
-/

namespace Columnar

/-- A document. Integers and floating-point numbers are kept apart. -/
inductive Json
  | null
  | bool (b : Bool)
  | int (n : Int)
  | float (x : Binary .double)
  | string (s : String)
  | array (items : List Json)
  | object (members : List (String × Json))
  deriving Repr

namespace Json

/-- A floating-point number, or nothing in place of an infinity or a NaN. -/
def ofDouble (x : Binary .double) : Json := if x.isFinite then float x else null

/-- Something, or nothing. -/
def ofOption {α : Type} (f : α → Json) : Option α → Json
  | some a => f a
  | none => null

/-! ## Writing -/

/-- The hexadecimal digit of a number below 16. -/
def hexDigit (n : Nat) : Char := Nat.digitChar n

/-- A character inside quotes: quotes, backslashes and control characters are escaped, five control
characters by a letter and the others by their number. -/
def escaped (c : Char) : List Char :=
  if c = '"' then ['\\', '"']
  else if c = '\\' then ['\\', '\\']
  else if c = '\x08' then ['\\', 'b']
  else if c = '\x0c' then ['\\', 'f']
  else if c = '\n' then ['\\', 'n']
  else if c = '\r' then ['\\', 'r']
  else if c = '\t' then ['\\', 't']
  else if c.toNat < 0x20 then
    ['\\', 'u', '0', '0', hexDigit (c.toNat / 16), hexDigit (c.toNat % 16)]
  else [c]

/-- A text between quotes. -/
def quoted (s : String) : List Char := '"' :: s.toList.flatMap escaped ++ ['"']

/-- A floating-point number always has a point. -/
def floatChars (x : Binary .double) : List Char :=
  if x.chars.contains '.' then x.chars else x.chars ++ ['.', '0']

mutual

/-- The document written out. -/
def chars : Json → List Char
  | null => ['n', 'u', 'l', 'l']
  | bool true => ['t', 'r', 'u', 'e']
  | bool false => ['f', 'a', 'l', 's', 'e']
  | int n => Text.integer n
  | float x => floatChars x
  | string s => quoted s
  | array items => '[' :: itemChars items
  | object members => '{' :: memberChars members

/-- The items of an array from the first to the closing bracket. -/
def itemChars : List Json → List Char
  | [] => [']']
  | [j] => j.chars ++ [']']
  | j :: js => j.chars ++ ',' :: itemChars js

/-- The members of an object from the first to the closing brace. -/
def memberChars : List (String × Json) → List Char
  | [] => ['}']
  | [(k, j)] => quoted k ++ ':' :: j.chars ++ ['}']
  | (k, j) :: ms => quoted k ++ ':' :: j.chars ++ ',' :: memberChars ms

end

/-- The text of a document. -/
def text (j : Json) : String := String.ofList j.chars

end Json

end Columnar
