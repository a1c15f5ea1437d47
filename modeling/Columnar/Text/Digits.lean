/-!
# `Columnar.Text.Digits` — decimal digits

Numbers are written in base ten here and nowhere else.

## Contents
- `digits`, `padded`, `integer`: whole numbers, with a sign or a fixed width.
- `positional`: a count of the last decimal place, written with a point.
- `digitValue?`, `ofDigits`: reading digits back.
-/

namespace Columnar.Text

-- powers of numbers are those of core, whatever else is in scope
attribute [local instance (high)] instPowNat

/-! ## Writing -/

/-- The decimal digits of a natural number, without leading zeros; zero is `0`. -/
def digits (n : Nat) : List Char := Nat.toDigits 10 n

/-- At least `width` digits, zeros in front. -/
def padded (width n : Nat) : List Char :=
  List.replicate (width - (digits n).length) '0' ++ digits n

/-- A minus sign in front of a negative number. -/
def signed (negative : Bool) (text : List Char) : List Char :=
  if negative then '-' :: text else text

/-- An integer: its digits, behind a minus sign when it is negative. -/
def integer (n : Int) : List Char := signed (n < 0) (digits n.natAbs)

/-- `n / 10 ^ places`, with exactly `places` digits behind the point and no point when there are none. -/
def positional (n places : Nat) : List Char :=
  if places = 0 then digits n
  else digits (n / 10 ^ places) ++ '.' :: padded places (n % 10 ^ places)

/-! ## Reading -/

/-- The value of a decimal digit. -/
def digitValue? (c : Char) : Option Nat :=
  if '0' ≤ c ∧ c ≤ '9' then some (c.toNat - '0'.toNat) else none

/-- Whether a character is one of the ten decimal digits. -/
def isDigit (c : Char) : Bool := (digitValue? c).isSome

/-- The number that a list of digits denotes, most significant first; other characters count as zero. -/
def ofDigits (cs : List Char) : Nat :=
  cs.foldl (fun n c => 10 * n + (digitValue? c).getD 0) 0

/-- The number written by a text of one or more digits and nothing else. -/
def natural? (cs : List Char) : Option Nat :=
  if cs ≠ [] ∧ cs.all isDigit then some (ofDigits cs) else none

/-- The number written by an optional sign and one or more digits. -/
def integer? : List Char → Option Int
  | '-' :: cs => (natural? cs).map (fun n => -(n : Int))
  | '+' :: cs => (natural? cs).map Int.ofNat
  | cs => (natural? cs).map Int.ofNat

end Columnar.Text
