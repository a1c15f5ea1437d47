import Columnar.ElementType.Basic
import Columnar.Binary.Shortest
import Columnar.Decimal.Basic
import Columnar.Datetime.Basic

/-!
# `Columnar.Value.Basic` — literal values

## Contents
- `Value`: a value of one of the ten types.
- `Value.type` and the views `asInt`, `asDouble`, `asString`.
- `Value.same`: equality, by bits for floats and by number for decimals.
- `Value.text`: the value written out.
-/

namespace Columnar

/-- A literal value. -/
inductive Value
  | boolean (b : Bool)
  | int (w : IntWidth) (n : BoundedInt w)
  | float (f : FloatFormat) (x : Binary f)
  | decimal (d : Decimal)
  | string (s : String)
  | datetime (t : Datetime)
  deriving DecidableEq, Repr

namespace Value

/-- The type of a value. -/
def type : Value → ElementType
  | boolean _ => .boolean
  | int w _ => .int w
  | float f _ => .float f
  | decimal _ => .decimal
  | string _ => .string
  | datetime _ => .datetime

/-! ## Views -/

/-- The number of an integer of any width. -/
def asInt : Value → Option Int
  | int _ n => some n.val
  | _ => none

/-- The number of a numeric value as a double, rounded where it must be. -/
def asDouble : Value → Option (Binary .double)
  | int _ n => some (Binary.ofInt .double n.val)
  | float .single x => some (x.convert .double)
  | float .double x => some x
  | decimal d => some d.toDouble
  | _ => none

/-- The text of a string. -/
def asString : Value → Option String
  | string s => some s
  | _ => none

/-! ## Equality -/

/-- Equality of values of one type: floats agree bit by bit, so a NaN equals itself, and decimals agree
as numbers. Values of different types are never equal. -/
def same : Value → Value → Bool
  | boolean a, boolean b => a == b
  | int v m, int w n => v == w && m.val == n.val
  | float f x, float g y => f == g && x.negative == y.negative && x.magnitude == y.magnitude
  | decimal a, decimal b => a.sameNumber b
  | string a, string b => a == b
  | datetime a, datetime b => a == b
  | _, _ => false

instance : BEq Value := ⟨same⟩

/-- Equality of values that may be missing. -/
def sameOption : Option Value → Option Value → Bool
  | some v, some w => v.same w
  | none, none => true
  | _, _ => false

/-! ## Text -/

/-- The value written out. A string stands between single quotes as it is. -/
def text : Value → String
  | boolean b => if b then "true" else "false"
  | int _ n => String.ofList (Text.integer n.val)
  | float _ x => x.text
  | decimal d => d.text
  | string s => "'" ++ s ++ "'"
  | datetime t => t.text

end Value

end Columnar
