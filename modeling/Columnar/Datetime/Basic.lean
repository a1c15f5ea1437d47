import Columnar.Text.Digits

/-!
# `Columnar.Datetime.Basic` — moments of the calendar, without a zone

A moment is a day of the proleptic Gregorian calendar and a time of that day down to the nanosecond. The
nanoseconds of any second may run on for one second more. After second 59 that is a leap second, and it is written
as second 60; after any other second it is written as the second that follows.

## Contents
- `Datetime`, `Datetime.make?`: the type, and the moments that can be given by their parts.
- `Datetime.text`, `Datetime.isoText`: with a space or a `T` between day and time.
-/

namespace Columnar

/-- Nanoseconds in a second. -/
def nanosPerSecond : Nat := 1000000000

/-- Every fourth year, except the centuries that are no multiple of four hundred. -/
def isLeapYear (year : Int) : Bool :=
  year % 4 == 0 && (year % 100 != 0 || year % 400 == 0)

/-- The number of days of a month, zero where there is no such month. -/
def daysInMonth (year : Int) (month : Nat) : Nat :=
  match month with
  | 1 | 3 | 5 | 7 | 8 | 10 | 12 => 31
  | 4 | 6 | 9 | 11 => 30
  | 2 => if isLeapYear year then 29 else 28
  | _ => 0

/-- The years that can be represented. -/
def isYear (year : Int) : Bool := -262143 ≤ year && year ≤ 262142

/-- A day and a time of day. The nanoseconds may run through a second that is not counted yet. -/
structure Datetime where
  year : Int
  month : Nat
  day : Nat
  hour : Nat
  minute : Nat
  second : Nat
  nanosecond : Nat
  isYear : isYear year = true
  isDay : 1 ≤ day ∧ day ≤ daysInMonth year month
  isTime : hour < 24 ∧ minute < 60 ∧ second < 60
  isFraction : nanosecond < 2 * nanosPerSecond
  deriving DecidableEq, Repr

namespace Datetime

/-- The moment with the given parts, if there is one. Nanoseconds beyond a second are taken for a leap second, and
there is none but after second 59. -/
def make? (year : Int) (month day hour minute second nanosecond : Nat) : Option Datetime :=
  if hy : Columnar.isYear year = true then
    if hd : 1 ≤ day ∧ day ≤ daysInMonth year month then
      if ht : hour < 24 ∧ minute < 60 ∧ second < 60 then
        if hf : nanosecond < 2 * nanosPerSecond ∧ (nanosecond < nanosPerSecond ∨ second = 59) then
          some ⟨year, month, day, hour, minute, second, nanosecond, hy, hd, ht, hf.1⟩
        else none
      else none
    else none
  else none

/-! ## Writing -/

/-- Four digits for the years 0 to 9999, a sign and at least four digits for all others. -/
def yearChars (year : Int) : List Char :=
  if 0 ≤ year ∧ year ≤ 9999 then Text.padded 4 year.natAbs
  else (if year < 0 then '-' else '+') :: Text.padded 4 year.natAbs

/-- The fraction of a second: nothing, or a point and the fewest of three, six or nine digits. -/
def fractionChars (nanos : Nat) : List Char :=
  if nanos = 0 then []
  else if nanos % 1000000 = 0 then '.' :: Text.padded 3 (nanos / 1000000)
  else if nanos % 1000 = 0 then '.' :: Text.padded 6 (nanos / 1000)
  else '.' :: Text.padded 9 nanos

/-- The day, a separator and the time. -/
def chars (separator : Char) (t : Datetime) : List Char :=
  yearChars t.year ++ '-' :: Text.padded 2 t.month ++ '-' :: Text.padded 2 t.day
    ++ separator :: Text.padded 2 t.hour ++ ':' :: Text.padded 2 t.minute
    ++ ':' :: Text.padded 2 (t.second + t.nanosecond / nanosPerSecond)
    ++ fractionChars (t.nanosecond % nanosPerSecond)

/-- The text for people: a space between day and time. -/
def text (t : Datetime) : String := String.ofList (t.chars ' ')

/-- The text for documents: a `T` between day and time. -/
def isoText (t : Datetime) : String := String.ofList (t.chars 'T')

end Datetime

end Columnar
