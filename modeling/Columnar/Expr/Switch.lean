import Columnar.Expr.Construct

/-!
# `Columnar.Expr.Switch` — choices between many values

## Contents
- `Cases`: conditions with their results, written in one list, in pairs, or one after the other.
- `Expr.switchOn`: the node, which compares a value with the conditions or takes them as they are.
-/

namespace Columnar

/-- Conditions with their results in order, and a result for the case that no condition holds. -/
structure Cases where
  pairs : List (Expr × Expr) := []
  default : Option Expr := none

namespace Cases

/-- The pairs of a list in which conditions and results take turns. An item left over is dropped. -/
def pairUp : List Expr → List (Expr × Expr)
  | c :: t :: rest => (c, t) :: pairUp rest
  | _ => []

/-- Cases from a list in which conditions and results take turns. -/
def ofFlat (items : List Expr) : Except BuildError Cases := do
  let c : Checker := ⟨"switch"⟩
  c.expectCount (items.length % 2 == 0) "condition and result pairs" items.length
  pure { pairs := pairUp items }

/-- Cases from pairs. -/
def ofPairs (pairs : List (Expr × Expr)) : Cases := { pairs }

/-- One more condition with its result, behind the others. -/
def add (cases : Cases) (condition result : Expr) : Cases :=
  { cases with pairs := cases.pairs ++ [(condition, result)] }

/-- The result for the case that no condition holds. -/
def otherwise (cases : Cases) (value : Expr) : Cases := { cases with default := some value }

def size (cases : Cases) : Nat := cases.pairs.length

def isEmpty (cases : Cases) : Bool := cases.pairs.isEmpty

def conditions (cases : Cases) : List Expr := cases.pairs.map Prod.fst

/-- The results of all conditions. -/
def thens (cases : Cases) : List Expr := cases.pairs.map Prod.snd

/-- Every condition, each with its result behind it, and the default. -/
def exprs (cases : Cases) : List Expr :=
  cases.pairs.flatMap (fun p => [p.1, p.2]) ++ cases.default.toList

/-- The parts of the switch that the cases describe. -/
def branches (cases : Cases) (case : Option Expr) : Branches Expr :=
  ⟨case, cases.conditions, cases.thens, cases.default⟩

end Cases

namespace Expr

/-- A condition must be comparable with the value of the switch, or be boolean if there is none. -/
def checkCondition (case : Option Expr) (condition : Expr) : Except BuildError Unit :=
  let c : Checker := ⟨"switch"⟩
  match case with
  | some value => c.checkCompatible value.type condition.type
  | none =>
    if condition.type = .boolean then .ok ()
    else c.ambiguous ("condition " ++ condition.text
      ++ " is not boolean and there is no value to compare it with")

/-- All conditions must be such, checked one after the other. -/
def checkConditions (case : Option Expr) (conditions : List Expr) : Except BuildError Unit :=
  conditions.forM (checkCondition case)

variable [Hasher]

/-- The result of the first case whose condition equals the value, or, without a value, whose condition
holds. -/
def switchOn (case : Option Expr) (cases : Cases) : Build Expr := do
  let c : Checker := ⟨"switch"⟩
  c.expectCount (!cases.isEmpty) "at least one case" 0
  checkConditions case cases.conditions
  let type ← c.commonType ((cases.thens ++ cases.default.toList).map Expr.type)
  let operands := (cases.branches case).toOperands
  .node (.switch case.isSome cases.default.isSome) type (.combine (operands.map Expr.shape)) operands

/-- Compares the expression with the conditions, one after the other. -/
def switch (e : Expr) (cases : Cases) : Build Expr := switchOn (some e) cases

end Expr

end Columnar
