import Columnar.Binary.Basic
import Columnar.Text.Blank

/-!
# `Columnar.ElementType.Basic` — the types of single values

## Contents
- `IntWidth`, `BoundedInt`: the four integer widths and their integers.
- `ElementType`: the ten types, in the order of `ElementType.all`.
- `ElementType.name`, `ElementType.tag`, `ElementType.ofName?`: names for people, for documents, and the
  spellings that are understood.
-/

namespace Columnar

-- powers of numbers are those of core, whatever else is in scope
attribute [local instance (high)] instPowNat

/-! ## Integers of a width -/

/-- The widths of integers. -/
inductive IntWidth
  | w8
  | w16
  | w32
  | w64
  deriving DecidableEq, Repr

namespace IntWidth

/-- Bits of a width. -/
def bits : IntWidth → Nat
  | w8 => 8
  | w16 => 16
  | w32 => 32
  | w64 => 64

/-- The integers of a width: two's complement range. -/
def Contains (w : IntWidth) (n : Int) : Prop :=
  -(2 ^ (w.bits - 1) : Int) ≤ n ∧ n < 2 ^ (w.bits - 1)

instance (w : IntWidth) (n : Int) : Decidable (w.Contains n) :=
  inferInstanceAs (Decidable (_ ∧ _))

end IntWidth

/-- An integer in the range of a width. -/
structure BoundedInt (w : IntWidth) where
  val : Int
  inRange : w.Contains val
  deriving DecidableEq, Repr

/-- The integer as one of the width, if it is in range. -/
def BoundedInt.ofInt? (w : IntWidth) (n : Int) : Option (BoundedInt w) :=
  if h : w.Contains n then some ⟨n, h⟩ else none

/-! ## Types -/

/-- The type of a single value, independent of how many values there are. -/
inductive ElementType
  | boolean
  | int (w : IntWidth)
  | float (f : FloatFormat)
  | decimal
  | string
  | datetime
  deriving DecidableEq, Repr

namespace ElementType

/-- All types, in their customary order. -/
def all : List ElementType :=
  [boolean, int .w8, int .w16, int .w32, int .w64, float .single, float .double, decimal, string,
    datetime]

theorem mem_all (t : ElementType) : t ∈ all := by
  rcases t with _ | ⟨_ | _ | _ | _⟩ | ⟨_ | _⟩ | _ | _ | _ <;> decide

def isInteger : ElementType → Bool
  | int _ => true
  | _ => false

def isFloat : ElementType → Bool
  | float _ => true
  | _ => false

/-- Integers, floats and decimals. -/
def isNumeric : ElementType → Bool
  | int _ | float _ | decimal => true
  | _ => false

/-! ## Names -/

/-- The name of a type in messages. -/
def name : ElementType → String
  | boolean => "boolean"
  | int .w8 => "int8"
  | int .w16 => "int16"
  | int .w32 => "int32"
  | int .w64 => "int64"
  | float .single => "float32"
  | float .double => "float64"
  | decimal => "decimal"
  | string => "string"
  | datetime => "datetime"

/-- The name of a type in documents. -/
def tag : ElementType → String
  | boolean => "Boolean"
  | int .w8 => "Int8"
  | int .w16 => "Int16"
  | int .w32 => "Int32"
  | int .w64 => "Int64"
  | float .single => "Float32"
  | float .double => "Float64"
  | decimal => "Decimal"
  | string => "String"
  | datetime => "Datetime"

/-- The type with a given name in documents. -/
def ofTag? (s : String) : Option ElementType := all.find? (fun t => t.tag == s)

@[simp] theorem ofTag?_tag (t : ElementType) : ofTag? t.tag = some t := by
  rcases t with _ | ⟨_ | _ | _ | _⟩ | ⟨_ | _⟩ | _ | _ | _ <;> rfl

/-- Other spellings of the type names. -/
def aliases : List (String × ElementType) :=
  [("bool", boolean), ("tinyint", int .w8), ("smallint", int .w16), ("int", int .w32),
    ("bigint", int .w64), ("float", float .single), ("double", float .double), ("str", string),
    ("timestamp", datetime)]

/-- The type that a text names. White space around the name and the case of its ASCII letters do not
count. -/
def ofName? (s : String) : Option ElementType :=
  let key := String.ofList ((Text.trim s.toList).map Char.toLower)
  (all.find? (fun t => t.name == key)).or (aliases.lookup key)

end ElementType

end Columnar
