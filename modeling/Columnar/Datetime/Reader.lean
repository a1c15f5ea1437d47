import Columnar.Datetime.Basic
import Columnar.Text.Blank

/-!
# `Columnar.Datetime.Reader` — moments read from text

The form is `year-month-dayThour:minute:second`, with an optional fraction behind the seconds. White space
may stand around every number and mark, except in front of the fraction. A year without a sign has at most
four digits, the other numbers at most two, and second 60 is a leap second. Digits of the fraction beyond the
ninth are dropped.
-/

namespace Columnar.Datetime

-- powers of numbers are those of core, whatever else is in scope
attribute [local instance (high)] instPowNat

/-- Reads one to `width` digits, behind white space. -/
def readNumber (width : Nat) (cs : List Char) : Option (Nat × List Char) :=
  let cs := Text.trimStart cs
  let ds := (cs.take width).takeWhile Text.isDigit
  if ds = [] then none else some (Text.ofDigits ds, cs.drop ds.length)

/-- Reads a mark, behind white space. -/
def readMark (mark : Char) (cs : List Char) : Option (List Char) :=
  match Text.trimStart cs with
  | c :: rest => if c = mark then some rest else none
  | [] => none

/-- Reads a run of digits of any length. -/
def readRun (cs : List Char) : Option (Nat × List Char) :=
  let ds := cs.takeWhile Text.isDigit
  if ds = [] then none else some (Text.ofDigits ds, cs.dropWhile Text.isDigit)

/-- Reads a year: at most four digits, or a sign and any number of them. -/
def readYear (cs : List Char) : Option (Int × List Char) :=
  match Text.trimStart cs with
  | '-' :: rest => (readRun rest).map fun (n, rest) => (-(n : Int), rest)
  | '+' :: rest => (readRun rest).map fun (n, rest) => ((n : Int), rest)
  | rest => (readNumber 4 rest).map fun (n, rest) => ((n : Int), rest)

/-- Reads a point and digits as nanoseconds; without a point there are none. -/
def readFraction : List Char → Option (Nat × List Char)
  | '.' :: cs =>
    let ds := (cs.take 9).takeWhile Text.isDigit
    if ds = [] then none
    else some (Text.ofDigits ds * 10 ^ (9 - ds.length), cs.dropWhile Text.isDigit)
  | cs => some (0, cs)

/-- Reads a moment from the whole text. -/
def read? (cs : List Char) : Option Datetime := do
  let (year, cs) ← readYear cs
  let cs ← readMark '-' cs
  let (month, cs) ← readNumber 2 cs
  let cs ← readMark '-' cs
  let (day, cs) ← readNumber 2 cs
  let cs ← readMark 'T' cs
  let (hour, cs) ← readNumber 2 cs
  let cs ← readMark ':' cs
  let (minute, cs) ← readNumber 2 cs
  let cs ← readMark ':' cs
  let (second, cs) ← readNumber 2 cs
  let (nanos, cs) ← readFraction cs
  if Text.trimStart cs ≠ [] then none
  else if second = 60 then make? year month day hour minute 59 (nanosPerSecond + nanos)
  else make? year month day hour minute second nanos

end Columnar.Datetime
