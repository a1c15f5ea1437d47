import Columnar.Value.Basic

/-!
# `Columnar.Value.Coercion` — implicit conversion of literals

A literal becomes a value of another numeric type when that type holds its number exactly. The one
conversion that rounds is that of a decimal to a double.
-/

namespace Columnar

/-- An integer of any width as a decimal. -/
def Decimal.ofBounded {w : IntWidth} (n : BoundedInt w) : Decimal where
  negative := n.val < 0
  coefficient := n.val.natAbs
  scale := 0
  coefficient_lt := by
    have h := n.inRange
    unfold IntWidth.Contains at h
    cases w <;> simp [IntWidth.bits] at h <;> omega
  scale_le := Nat.zero_le _

namespace Value

/-- The value as one of the target type, if it converts. -/
def coerce (v : Value) (target : ElementType) : Option Value :=
  if v.type = target then some v
  else match v, target with
    | int _ n, .int w => (BoundedInt.ofInt? w n.val).map (int w)
    | int _ n, .float f => (Binary.ofIntExact? f n.val).map (float f)
    | int _ n, .decimal => some (decimal (.ofBounded n))
    | float .single x, .float .double => some (float .double (x.convert .double))
    | float .double x, .float .single => (x.convertExact? .single).map (float .single)
    | decimal d, .float .double => some (float .double d.toDouble)
    | _, _ => none

end Value

end Columnar
