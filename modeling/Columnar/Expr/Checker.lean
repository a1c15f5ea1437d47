import Columnar.Expr.Query
import Columnar.Value.Coercion

/-!
# `Columnar.Expr.Checker` — the checks of constructions

Every construction checks its operands before it makes a node. A checker knows the name of the construction,
which its refusals mention.

## Contents
- `commonType`, `checkCompatible`: types that have to meet.
- `expectType`, `expectBoolean`, `expectNumeric`, `expectScalar`, `expectCount`: single demands.
- `unaryOutput`, `binaryOutput`: the outcome of an operator's rule.
- `coerceLiteral`, `checkCast`: conversions.
-/

namespace Columnar

/-- The name that a construction goes by in its refusals. -/
structure Checker where
  operator : String

namespace Checker

variable (c : Checker)

/-! ## Types that have to meet -/

/-- The common type of what has been seen and the types to come. -/
def foldTypes (acc : ElementType) : List ElementType → Except BuildError ElementType
  | [] => .ok acc
  | t :: ts =>
    match acc.promote t with
    | some u => foldTypes u ts
    | none => .error (.noCommonType acc t c.operator)

/-- The common type of a list, folded from the left; there must be one type at least. -/
def commonType : List ElementType → Except BuildError ElementType
  | [] => .error (.argumentCount c.operator "at least one typed operand" 0)
  | t :: ts => c.foldTypes t ts

/-- Two types must have a common type. -/
def checkCompatible (left right : ElementType) : Except BuildError Unit :=
  (c.commonType [left, right]).map fun _ => ()

/-! ## Single demands -/

/-- Refuses an argument for a given reason. -/
def invalidArgument {α : Type} (reason : String) : Except BuildError α :=
  .error (.invalidArgument c.operator reason)

/-- Refuses a construction that could mean two things. -/
def ambiguous {α : Type} (reason : String) : Except BuildError α :=
  .error (.ambiguous c.operator reason)

/-- A type must be the expected one; `role` says whose type it is. -/
def expectType (expected actual : ElementType) (role : String) : Except BuildError Unit :=
  if expected = actual then .ok ()
  else .error (.typeMismatch expected actual (c.operator ++ " " ++ role))

/-- An expression must be boolean. -/
def expectBoolean (e : Expr) (role : String) : Except BuildError Unit :=
  c.expectType .boolean e.type role

/-- A type must be numeric. -/
def expectNumeric (actual : ElementType) : Except BuildError Unit :=
  if actual.isNumeric then .ok () else .error (.invalidOperandType c.operator actual)

/-- An expression must be a single value. -/
def expectScalar (e : Expr) (role : String) : Except BuildError Unit :=
  if e.isScalar then .ok ()
  else c.invalidArgument (role ++ " must be a scalar, got " ++ e.text)

/-- A count must be as expected. -/
def expectCount (ok : Bool) (expected : String) (actual : Nat) : Except BuildError Unit :=
  if ok then .ok () else .error (.argumentCount c.operator expected actual)

/-! ## Operators and conversions -/

/-- The type that a rule gives for one operand. -/
def unaryOutput (rule : Option ElementType) (actual : ElementType) :
    Except BuildError ElementType :=
  match rule with
  | some t => .ok t
  | none => .error (.invalidOperandType c.operator actual)

/-- The type that a rule gives for two operands. -/
def binaryOutput (rule : Option ElementType) (left right : ElementType) :
    Except BuildError ElementType :=
  match rule with
  | some t => .ok t
  | none => .error (.invalidOperandTypes c.operator left right)

/-- A literal as a value of the target type. -/
def coerceLiteral (v : Value) (target : ElementType) : Except BuildError Value :=
  match v.coerce target with
  | some w => .ok w
  | none => .error (.incompatibleLiteral v target c.operator)

/-- A cast must be allowed. -/
def checkCast (source target : ElementType) : Except BuildError Unit :=
  if source.canCastTo target then .ok () else .error (.invalidCast source target)

end Checker

end Columnar
