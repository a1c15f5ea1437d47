import Columnar.Value.Basic

/-!
# `Columnar.Error` — why a construction is refused

## Contents
- `BuildError`: the causes, each with what its message needs.
- `BuildError.category`: whether types, counts and values, or the structure are at fault.
- `BuildError.message`: the wording.
-/

namespace Columnar

/-- The broad classes of refusals. -/
inductive ErrorCategory
  /-- Types cannot be unified or do not suit the operator. -/
  | type
  /-- Counts or values are wrong, whatever the types. -/
  | value
  /-- The parts do not belong together. -/
  | expression
  deriving DecidableEq, Repr

/-- Why a construction is refused. -/
inductive BuildError
  | typeMismatch (expected actual : ElementType) (context : String)
  | noCommonType (left right : ElementType) (context : String)
  | invalidOperandType (operator : String) (actual : ElementType)
  | invalidOperandTypes (operator : String) (left right : ElementType)
  | invalidCast (source target : ElementType)
  | incompatibleLiteral (value : Value) (target : ElementType) (context : String)
  | argumentCount (operator expected : String) (actual : Nat)
  | invalidArgument (operator reason : String)
  | unknownType (name : String)
  | duplicateField (name : String)
  | fieldNotFound (name collection : String)
  | foreignField (expression collection : String)
  | ambiguous (operator reason : String)
  deriving DecidableEq, Repr

namespace BuildError

/-- The class that a refusal belongs to. -/
def category : BuildError → ErrorCategory
  | typeMismatch .. | noCommonType .. | invalidOperandType .. | invalidOperandTypes ..
  | invalidCast .. | incompatibleLiteral .. => .type
  | argumentCount .. | invalidArgument .. | unknownType .. | duplicateField .. => .value
  | fieldNotFound .. | foreignField .. | ambiguous .. => .expression

/-- The wording of a refusal. -/
def message : BuildError → String
  | typeMismatch expected actual context =>
    "Type mismatch in " ++ context ++ ": expected " ++ expected.name ++ ", got " ++ actual.name
  | noCommonType left right context =>
    "No common type for " ++ left.name ++ " and " ++ right.name ++ " in " ++ context
  | invalidOperandType operator actual =>
    "Invalid operand type for operator " ++ operator ++ ": " ++ actual.name
  | invalidOperandTypes operator left right =>
    "Invalid operand types for operator " ++ operator ++ ": left=" ++ left.name
      ++ ", right=" ++ right.name
  | invalidCast source target => "Cannot cast " ++ source.name ++ " to " ++ target.name
  | incompatibleLiteral value target context =>
    "Cannot use " ++ value.text ++ " as a " ++ target.name ++ " value in " ++ context
  | argumentCount operator expected actual =>
    operator ++ " expects " ++ expected ++ ", got " ++ String.ofList (Text.digits actual)
  | invalidArgument operator reason => "Invalid argument for " ++ operator ++ ": " ++ reason
  | unknownType name => "Unknown element type: " ++ name
  | duplicateField name => "Duplicate field: " ++ name
  | fieldNotFound name collection => "Field '" ++ name ++ "' not found in " ++ collection
  | foreignField expression collection =>
    "Expression " ++ expression ++ " references fields outside of " ++ collection
  | ambiguous operator reason => "Ambiguous " ++ operator ++ ": " ++ reason

end BuildError

/-- The type that a text names, or the refusal of an unknown name, which keeps the text as it was. -/
def ElementType.parse (s : String) : Except BuildError ElementType :=
  match ofName? s with
  | some t => .ok t
  | none => .error (.unknownType s)

end Columnar
