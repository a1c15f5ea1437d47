import Columnar.Json.Number

/-!
# `Columnar.Json.Reader` — reading documents

A reader takes the front of a text and returns what it read together with the rest, or nothing. Readers
follow the type that is asked for; only members that nobody asked for are skipped by their form alone.

## Contents
- `skipSpace`, `mark`, `word`: white space and fixed marks.
- `scanString`, `joinUnits`, `readString`: strings and their escapes.
- `readNumber`, `readObject`: numbers, and objects member by member.
- `skipValue`: a value of any form.
- `readName`: a name from a list, as a string or as an object with nothing in it.
- `readWhole`: a reader applied to a whole text.
-/

namespace Columnar.Json.Reader

/-! ## Marks -/

/-- White space in documents. -/
def isSpace (c : Char) : Bool := c == ' ' || c == '\n' || c == '\t' || c == '\r'

def skipSpace (cs : List Char) : List Char := cs.dropWhile isSpace

/-- A mark, behind white space. -/
def mark (c : Char) (cs : List Char) : Option (List Char) :=
  match skipSpace cs with
  | d :: rest => if d = c then some rest else none
  | [] => none

/-- A word of fixed letters, behind white space. -/
def word (w : List Char) (cs : List Char) : Option (List Char) :=
  let cs := skipSpace cs
  if w.isPrefixOf cs then some (cs.drop w.length) else none

/-! ## Strings -/

/-- The value of a hexadecimal digit. -/
def hexValue? (c : Char) : Option Nat :=
  if '0' ≤ c ∧ c ≤ '9' then some (c.toNat - '0'.toNat)
  else if 'a' ≤ c ∧ c ≤ 'f' then some (c.toNat - 'a'.toNat + 10)
  else if 'A' ≤ c ∧ c ≤ 'F' then some (c.toNat - 'A'.toNat + 10)
  else none

/-- The value of four hexadecimal digits. -/
def hex4? (a b c d : Char) : Option Nat := do
  some ((((← hexValue? a) * 16 + (← hexValue? b)) * 16 + (← hexValue? c)) * 16 + (← hexValue? d))

/-- The character that a letter behind a backslash stands for. -/
def escape? (c : Char) : Option Char :=
  if c = '"' ∨ c = '\\' ∨ c = '/' then some c
  else if c = 'b' then some '\x08'
  else if c = 'f' then some '\x0c'
  else if c = 'n' then some '\n'
  else if c = 'r' then some '\r'
  else if c = 't' then some '\t'
  else none

/-- Reads up to the closing quote. The result holds the code point of each character and the value of each
numbered escape, which may be half of a pair. -/
def scanString : List Char → Option (List Nat × List Char)
  | [] => none
  | c :: cs =>
    if c = '"' then some ([], cs)
    else if c = '\\' then
      match cs with
      | [] => none
      | e :: cs =>
        if e = 'u' then
          match cs with
          | h :: i :: j :: k :: cs => do
            let u ← hex4? h i j k
            let (us, rest) ← scanString cs
            some (u :: us, rest)
          | _ => none
        else do
          let u ← escape? e
          let (us, rest) ← scanString cs
          some (u.toNat :: us, rest)
    else if c.toNat < 0x20 then none
    else do
      let (us, rest) ← scanString cs
      some (c.toNat :: us, rest)

/-- The characters of a scanned string. Two escapes from the surrogate ranges, the upper range first, are
one character; one that stands alone is none. -/
def joinUnits : List Nat → Option (List Char)
  | [] => some []
  | u :: us =>
    if 0xDC00 ≤ u ∧ u < 0xE000 then none
    else if 0xD800 ≤ u ∧ u < 0xDC00 then
      match us with
      | v :: us =>
        if 0xDC00 ≤ v ∧ v < 0xE000 then
          (joinUnits us).map (Char.ofNat (0x10000 + (u - 0xD800) * 0x400 + (v - 0xDC00)) :: ·)
        else none
      | [] => none
    else (joinUnits us).map (Char.ofNat u :: ·)

/-- A string, behind white space. -/
def readString (cs : List Char) : Option (String × List Char) := do
  let cs ← mark '"' cs
  let (us, rest) ← scanString cs
  some (String.ofList (← joinUnits us), rest)

/-! ## Numbers and objects -/

/-- A number, behind white space. -/
def readNumber (cs : List Char) : Option (Number × List Char) := do
  let (n, rest) ← Numeral.scan (skipSpace cs)
  some (← n.value?, rest)

/-- The members of an object from a key to the closing brace, each handed to `step` with what the members
before it gave. There are no more members than `fuel`. -/
def members {σ : Type} (step : σ → String → List Char → Option (σ × List Char)) :
    Nat → σ → List Char → Option (σ × List Char)
  | 0, _, _ => none
  | fuel + 1, acc, cs => do
    let (key, cs) ← readString cs
    let cs ← mark ':' cs
    let (acc, cs) ← step acc key cs
    match skipSpace cs with
    | ',' :: cs => members step fuel acc cs
    | '}' :: cs => some (acc, cs)
    | _ => none

/-- An object, behind white space, read member by member. -/
def readObject {σ : Type} (step : σ → String → List Char → Option (σ × List Char)) (start : σ)
    (cs : List Char) : Option (σ × List Char) := do
  let cs ← mark '{' cs
  match skipSpace cs with
  | '}' :: cs => some (start, cs)
  | _ => members step cs.length start cs

/-! ## Values of any form -/

mutual

/-- Skips a value of any form. Strings need not denote characters, nor numbers be in range. -/
def skipForm : Nat → List Char → Option (List Char)
  | 0, _ => none
  | fuel + 1, cs =>
    match skipSpace cs with
    | '"' :: cs => (scanString cs).map Prod.snd
    | '[' :: cs =>
      match skipSpace cs with
      | ']' :: cs => some cs
      | _ => skipItems fuel cs
    | '{' :: cs =>
      match skipSpace cs with
      | '}' :: cs => some cs
      | _ => skipMembers fuel cs
    | cs =>
      (word ['n', 'u', 'l', 'l'] cs).or <| (word ['t', 'r', 'u', 'e'] cs).or <|
        (word ['f', 'a', 'l', 's', 'e'] cs).or <| (Numeral.scan cs).map Prod.snd

/-- Skips the items of an array from the first to the closing bracket. -/
def skipItems : Nat → List Char → Option (List Char)
  | 0, _ => none
  | fuel + 1, cs => do
    let cs ← skipForm fuel cs
    match skipSpace cs with
    | ',' :: cs => skipItems fuel cs
    | ']' :: cs => some cs
    | _ => none

/-- Skips the members of an object from the first to the closing brace. -/
def skipMembers : Nat → List Char → Option (List Char)
  | 0, _ => none
  | fuel + 1, cs => do
    let cs ← mark '"' cs
    let (_, cs) ← scanString cs
    let cs ← mark ':' cs
    let cs ← skipForm fuel cs
    match skipSpace cs with
    | ',' :: cs => skipMembers fuel cs
    | '}' :: cs => some cs
    | _ => none

end

/-- Skips a value of any form. Every step consumes a character, but for one that enters a list. -/
def skipValue (cs : List Char) : Option (List Char) := skipForm (2 * cs.length + 2) cs

/-! ## Names and whole texts -/

/-- A name that `find?` knows: a string, or an object whose only member has the name as its key and holds
nothing. -/
def readName {α : Type} (find? : String → Option α) (cs : List Char) : Option (α × List Char) :=
  match skipSpace cs with
  | '{' :: cs => do
    let (key, cs) ← readString cs
    let a ← find? key
    let cs ← mark ':' cs
    let cs ← word ['n', 'u', 'l', 'l'] cs
    let cs ← mark '}' cs
    some (a, cs)
  | cs => do
    let (key, cs) ← readString cs
    some (← find? key, cs)

/-- What a reader makes of a whole text, white space at its end apart. -/
def readWhole {α : Type} (reader : List Char → Option (α × List Char)) (text : String) : Option α := do
  let (a, cs) ← reader text.toList
  if skipSpace cs = [] then some a else none

end Columnar.Json.Reader
