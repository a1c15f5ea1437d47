import Columnar.Value.Basic
import Columnar.Json.Basic
import Columnar.Json.Reader
import Columnar.Decimal.Reader
import Columnar.Datetime.Reader

/-!
# `Columnar.Value.Json` — types and values in documents

A type is its tag. A value is an object with its type's tag as the only key. Decimals and datetimes are
written as strings, and a float that is not finite as nothing.
-/

namespace Columnar

namespace ElementType

def toJson (t : ElementType) : Json := .string t.tag

/-- Reads a type. -/
def reader : List Char → Option (ElementType × List Char) := Json.Reader.readName ofTag?

/-- The type in a document. -/
def ofJsonText? (text : String) : Option ElementType := Json.Reader.readWhole reader text

end ElementType

namespace Value

/-! ## Writing -/

/-- The value without its tag. A single float is written as the double that it is. -/
def payloadJson : Value → Json
  | boolean b => .bool b
  | int _ n => .int n.val
  | float _ x => .ofDouble (x.convert .double)
  | decimal d => .string d.text
  | string s => .string s
  | datetime t => .string t.isoText

/-- The value under the tag of its type. -/
def toJson (v : Value) : Json := .object [(v.type.tag, v.payloadJson)]

/-! ## Reading -/

/-- A number as a float of a format; a fraction becomes a double first. -/
def ofNumber (f : FloatFormat) : Json.Number → Binary f
  | .int n => .ofInt f n
  | .double x => x.convert f

/-- A number as an integer of a width. -/
def boundedInt? (w : IntWidth) : Json.Number → Option (BoundedInt w)
  | .int n => BoundedInt.ofInt? w n
  | .double _ => none

/-- A number as a decimal; a fraction goes through its shortest text. -/
def decimalOfNumber? : Json.Number → Option Decimal
  | .int n => Decimal.make? n 0
  | .double x => Decimal.ofChars? x.chars

open Json.Reader in
/-- Reads a value of a known type, without its tag. -/
def payloadReader (t : ElementType) (cs : List Char) : Option (Value × List Char) :=
  match t with
  | .boolean =>
    match word ['t', 'r', 'u', 'e'] cs with
    | some cs => some (.boolean true, cs)
    | none => (word ['f', 'a', 'l', 's', 'e'] cs).map fun cs => (.boolean false, cs)
  | .int w => do
    let (n, cs) ← readNumber cs
    some (.int w (← boundedInt? w n), cs)
  | .float f => (readNumber cs).map fun (n, cs) => (.float f (ofNumber f n), cs)
  | .decimal =>
    match skipSpace cs with
    | '"' :: _ => do
      let (s, cs) ← readString cs
      some (.decimal (← Decimal.read? s.toList), cs)
    | _ => do
      let (n, cs) ← readNumber cs
      some (.decimal (← decimalOfNumber? n), cs)
  | .string => (readString cs).map fun (s, cs) => (.string s, cs)
  | .datetime => do
    let (s, cs) ← readString cs
    some (.datetime (← Datetime.read? s.toList), cs)

open Json.Reader in
/-- Reads a value: an object with one member, whose key is the tag of its type. -/
def reader (cs : List Char) : Option (Value × List Char) := do
  let cs ← mark '{' cs
  let (key, cs) ← readString cs
  let t ← ElementType.ofTag? key
  let cs ← mark ':' cs
  let (v, cs) ← payloadReader t cs
  let cs ← mark '}' cs
  some (v, cs)

/-- The value in a document. -/
def ofJsonText? (text : String) : Option Value := Json.Reader.readWhole reader text

end Value

end Columnar
