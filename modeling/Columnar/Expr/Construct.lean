import Columnar.Expr.Checker

/-!
# `Columnar.Expr.Construct` — expressions from operators

Each construction checks its operands and makes one node over them; `fillMissing` also makes a node for a
literal that it converts. The operands are kept as they are, and the expressions given are never changed.

## Contents
- `binary`, `unary`, `reduce`, `cast`: operators and conversions.
- `isNull`, `notNull`, `fillMissing`: missing values.
- `membership`, `between`, `conditional`: membership, ranges, choices.
-/

namespace Columnar.Expr

variable [Hasher]

/-! ## Operators -/

/-- An operator between two expressions. -/
def binary (e : Expr) (op : BinaryOperator) (rhs : Expr) : Build Expr := do
  let c : Checker := ⟨op.symbol⟩
  let type ← c.binaryOutput (op.output e.type rhs.type) e.type rhs.type
  .node (.binary op) type (.combine [e.shape, rhs.shape]) [e, rhs]

/-- An operator on one expression. -/
def unary (e : Expr) (op : UnaryOperator) : Build Expr := do
  let c : Checker := ⟨op.symbol⟩
  let type ← c.unaryOutput (op.output e.type) e.type
  .node (.unary op) type e.shape [e]

/-- A reduction, which always yields a single value. -/
def reduce (e : Expr) (op : Reduction) : Build Expr := do
  let c : Checker := ⟨op.symbol⟩
  let type ← c.unaryOutput (op.output e.type) e.type
  .node (.reduce op) type .scalar [e]

/-- An explicit conversion. Converting to the type that an expression has gives it back. -/
def cast (e : Expr) (target : ElementType) : Build Expr :=
  if target = e.type then pure e
  else do
    Checker.checkCast e.type target
    .node .cast target e.shape [e]

/-! ## Missing values -/

/-- A test of whether a value is missing. It applies to all types and is never refused. -/
def nullTest (e : Expr) (op : UnaryOperator) : Build Expr := .node (.unary op) .boolean e.shape [e]

/-- Whether a value is missing. -/
def isNull (e : Expr) : Build Expr := e.nullTest .isNull

/-- Whether a value is there. -/
def notNull (e : Expr) : Build Expr := e.nullTest .notNull

/-- The expression that stands in for missing values of another: a literal converted to their type, or
anything else whose type promotes to it. -/
def fill (e : Expr) (value : Expr) : Build Expr := do
  let c : Checker := ⟨"fillna"⟩
  match value.kind.literal? with
  | some v => do
    let w ← c.coerceLiteral v e.type
    literal w
  | none => do
    let common ← c.commonType [e.type, value.type]
    c.expectType e.type common "fill value"
    pure value

/-- Replaces missing values by a single value. -/
def fillMissing (e : Expr) (value : Expr) : Build Expr := do
  let c : Checker := ⟨"fillna"⟩
  c.expectScalar value "fill value"
  let f ← e.fill value
  .node .fillMissing e.type e.shape [e, f]

/-! ## Membership, ranges, choices -/

/-- A candidate must be a single value of a type that can be compared. -/
def checkCandidate (c : Checker) (type : ElementType) (candidate : Expr) : Except BuildError Unit := do
  c.expectScalar candidate "candidate"
  c.checkCompatible type candidate.type

/-- All candidates must be such, checked one after the other. -/
def checkCandidates (c : Checker) (type : ElementType) (candidates : List Expr) :
    Except BuildError Unit :=
  candidates.forM (checkCandidate c type)

/-- Whether a value is among candidates, or is not. -/
def membership (e : Expr) (negated : Bool) (candidates : List Expr) : Build Expr := do
  let c : Checker := ⟨(Kind.membership negated).name⟩
  c.expectCount (!candidates.isEmpty) "at least one candidate" 0
  checkCandidates c e.type candidates
  .node (.membership negated) .boolean e.shape (e :: candidates)

/-- Whether a value lies in a range. -/
def between (e : Expr) (lower upper : Expr) (inclusive : Bool) : Build Expr := do
  let c : Checker := ⟨"between"⟩
  let _ ← c.commonType [e.type, lower.type, upper.type]
  .node (.between inclusive) .boolean (.combine [e.shape, lower.shape, upper.shape])
    [e, lower, upper]

/-- One of two values, as a condition holds or not. -/
def conditional (e : Expr) (ifTrue ifFalse : Expr) : Build Expr := do
  let c : Checker := ⟨"ifelse"⟩
  c.expectBoolean e "condition"
  let type ← c.commonType [ifTrue.type, ifFalse.type]
  .node .conditional type (.combine [e.shape, ifTrue.shape, ifFalse.shape]) [e, ifTrue, ifFalse]

end Columnar.Expr
