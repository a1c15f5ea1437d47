import Columnar.ElementType.Promotion

/-!
# `Columnar.Operator` — operators and their typing rules

Every operator has a symbol for messages, a tag for documents, and a rule `output` that gives the type of
its result or nothing where the operand types do not suit it.

## Contents
- `BinaryOperator`, `UnaryOperator`, `Reduction`.
-/

namespace Columnar

/-! ## Two operands -/

inductive BinaryOperator
  | add
  | sub
  | mul
  | div
  | eq
  | ne
  | lt
  | le
  | gt
  | ge
  | and
  | or
  deriving DecidableEq, Repr

namespace BinaryOperator

def all : List BinaryOperator := [add, sub, mul, div, eq, ne, lt, le, gt, ge, and, or]

def symbol : BinaryOperator → String
  | add => "+"
  | sub => "-"
  | mul => "*"
  | div => "/"
  | eq => "=="
  | ne => "!="
  | lt => "<"
  | le => "<="
  | gt => ">"
  | ge => ">="
  | and => "AND"
  | or => "OR"

def tag : BinaryOperator → String
  | add => "Add"
  | sub => "Sub"
  | mul => "Mul"
  | div => "Div"
  | eq => "Eq"
  | ne => "Ne"
  | lt => "Lt"
  | le => "Le"
  | gt => "Gt"
  | ge => "Ge"
  | and => "And"
  | or => "Or"

/-- The operator with a given tag. -/
def ofTag? (s : String) : Option BinaryOperator := all.find? (fun op => op.tag == s)

@[simp] theorem ofTag?_tag (op : BinaryOperator) : ofTag? op.tag = some op := by
  cases op <;> rfl

/-- The common type of two numeric types. -/
def numeric (left right : ElementType) : Option ElementType :=
  if left.isNumeric && right.isNumeric then left.promote right else none

/-- The type of the result. Strings can be added, the quotient of integers is a double, what has a common
type can be compared, and only booleans are joined by `AND` and `OR`. -/
def output (op : BinaryOperator) (left right : ElementType) : Option ElementType :=
  match op with
  | add => if left = .string ∧ right = .string then some .string else numeric left right
  | sub | mul => numeric left right
  | div => (numeric left right).map fun t => if t.isInteger then .float .double else t
  | eq | ne | lt | le | gt | ge => (left.promote right).map fun _ => .boolean
  | and | or => if left = .boolean ∧ right = .boolean then some .boolean else none

end BinaryOperator

/-! ## One operand -/

inductive UnaryOperator
  | not
  | isNull
  | notNull
  | negate
  | abs
  | lower
  | upper
  deriving DecidableEq, Repr

namespace UnaryOperator

def all : List UnaryOperator := [not, isNull, notNull, negate, abs, lower, upper]

def symbol : UnaryOperator → String
  | not => "NOT"
  | isNull => "isnull"
  | notNull => "notnull"
  | negate => "-"
  | abs => "abs"
  | lower => "lower"
  | upper => "upper"

def tag : UnaryOperator → String
  | not => "Not"
  | isNull => "IsNull"
  | notNull => "NotNull"
  | negate => "Negate"
  | abs => "Abs"
  | lower => "Lower"
  | upper => "Upper"

/-- The operator with a given tag. -/
def ofTag? (s : String) : Option UnaryOperator := all.find? (fun op => op.tag == s)

@[simp] theorem ofTag?_tag (op : UnaryOperator) : ofTag? op.tag = some op := by
  cases op <;> rfl

/-- The type of the result. Any type can be tested for missing values. -/
def output (op : UnaryOperator) (operand : ElementType) : Option ElementType :=
  match op with
  | not => if operand = .boolean then some .boolean else none
  | isNull | notNull => some .boolean
  | negate | abs => if operand.isNumeric then some operand else none
  | lower | upper => if operand = .string then some .string else none

end UnaryOperator

/-! ## Reductions -/

/-- Operators that make one value of all the values of their operand. -/
inductive Reduction
  | sum
  | min
  | max
  | mean
  | count
  deriving DecidableEq, Repr

namespace Reduction

def all : List Reduction := [sum, min, max, mean, count]

def symbol : Reduction → String
  | sum => "sum"
  | min => "min"
  | max => "max"
  | mean => "mean"
  | count => "count"

def tag : Reduction → String
  | sum => "Sum"
  | min => "Min"
  | max => "Max"
  | mean => "Mean"
  | count => "Count"

/-- The reduction with a given tag. -/
def ofTag? (s : String) : Option Reduction := all.find? (fun r => r.tag == s)

@[simp] theorem ofTag?_tag (r : Reduction) : ofTag? r.tag = some r := by
  cases r <;> rfl

/-- The type of the result. Sums take the widest type of their kind, and summing strings joins them. -/
def output (r : Reduction) (operand : ElementType) : Option ElementType :=
  match r, operand with
  | sum, .int _ => some (.int .w64)
  | sum, .float _ => some (.float .double)
  | sum, .decimal => some .decimal
  | sum, .string => some .string
  | sum, _ => none
  | mean, .decimal => some .decimal
  | mean, t => if t.isNumeric then some (.float .double) else none
  | min, t | max, t => some t
  | count, _ => some (.int .w64)

end Reduction

end Columnar
