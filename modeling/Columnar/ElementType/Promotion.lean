import Columnar.ElementType.Basic

/-!
# `Columnar.ElementType.Promotion` — the types that values of two types have in common

## Contents
- `ElementType.widen`: one direction of the promotion rules.
- `ElementType.promote`, `ElementType.promoteAll`: the common type of two types, and of a list.
- `ElementType.canCastTo`: the explicit conversions that are allowed.
-/

namespace Columnar.ElementType

/-- The wider of two integer widths. -/
def widerWidth (a b : IntWidth) : IntWidth := if a.bits ≤ b.bits then b else a

/-- The common type of two types, where the first is the one to be widened. A single float holds integers
of up to 16 bits; a float and a decimal meet in the double. -/
def widen : ElementType → ElementType → Option ElementType
  | int a, int b => some (int (widerWidth a b))
  | float .single, float .double => some (float .double)
  | int w, float .single => some (float (if w.bits ≤ 16 then .single else .double))
  | int _, float .double => some (float .double)
  | int _, decimal => some decimal
  | float _, decimal => some (float .double)
  | _, _ => none

/-- The common type of two types, if there is one. -/
def promote (a b : ElementType) : Option ElementType :=
  if a = b then some a else (widen a b).or (widen b a)

/-- The common type of a list, folded from the left. An empty list has none. -/
def promoteAll : List ElementType → Option ElementType
  | [] => none
  | t :: ts => ts.foldlM promote t

/-- Whether values of one type may be converted to another on request. -/
def canCastTo (a b : ElementType) : Bool :=
  a == b || b == string || (a.isNumeric && b.isNumeric)
    || (a == boolean && b.isInteger) || (a.isInteger && b == boolean)
    || (a == string && (b.isNumeric || b == datetime || b == boolean))

end Columnar.ElementType
