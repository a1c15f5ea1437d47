import Columnar.Bins
import Columnar.Hash
import Columnar.Operator
import Columnar.Shape

/-!
# `Columnar.Expr.Kind` — the kinds of expression nodes

## Contents
- `Branches`: the operands of a switch, laid out in one list and taken apart again.
- `Axis`, `Mapping`: how a user function is applied.
- `Kind`: what a node does with its operands, with its name, its equality and its text.
-/

namespace Columnar

/-- Tells sources apart. -/
structure SourceId where
  number : Nat
  deriving DecidableEq, Repr

/-! ## Branches of a switch -/

/-- The parts of a switch: a value to compare with, conditions and their results, and a result for the case
that no condition holds. -/
structure Branches (α : Type) where
  case : Option α
  conditions : List α
  thens : List α
  default : Option α
  deriving DecidableEq, Repr

namespace Branches

variable {α : Type}

/-- The parts in one list: the value, all conditions, all results, the default. -/
def toOperands (b : Branches α) : List α :=
  b.case.toList ++ b.conditions ++ b.thens ++ b.default.toList

/-- Takes a list of operands apart again. -/
def ofOperands (hasCase hasDefault : Bool) (operands : List α) : Branches α :=
  let offset := hasCase.toNat
  let n := (operands.length - offset - hasDefault.toNat) / 2
  { case := if hasCase then operands.head? else none
    conditions := (operands.drop offset).take n
    thens := (operands.drop (offset + n)).take n
    default := if hasDefault then operands.getLast? else none }

/-- Laying the parts out and taking them apart loses nothing, as long as every condition has a result. -/
theorem ofOperands_toOperands (b : Branches α) (h : b.conditions.length = b.thens.length) :
    ofOperands b.case.isSome b.default.isSome b.toOperands = b := by
  obtain ⟨case, conditions, thens, default⟩ := b
  have hn : (conditions.length + thens.length) / 2 = conditions.length := by
    simp only at h
    omega
  cases case <;> cases default <;>
    simp_all [ofOperands, toOperands, Nat.add_comm 1, List.getLast?_cons]

end Branches

/-! ## Mappings -/

/-- What a user function sees. -/
inductive Axis
  /-- One field value at a time. -/
  | column
  /-- All fields of a row at once. -/
  | row
  deriving DecidableEq, Repr

/-- The name of an axis in documents. -/
def Axis.tag : Axis → String
  | column => "Column"
  | row => "Row"

/-- A user function, its axis, and the place of a field among those that a row expands to. -/
structure Mapping where
  function : MapFunction
  axis : Axis
  outputIndex : Option Nat

/-- The same function, axis and place. -/
def Mapping.same (a b : Mapping) : Bool :=
  a.function.same b.function && a.axis == b.axis && a.outputIndex == b.outputIndex

/-! ## Kinds -/

/-- What a node does with its operands. -/
inductive Kind
  /-- A field of a source. -/
  | column (name : String) (source : SourceId)
  /-- A constant. -/
  | literal (value : Value)
  | unary (op : UnaryOperator)
  | binary (op : BinaryOperator)
  | reduce (op : Reduction)
  /-- Operands: a value, and the value that stands in for it where it is missing. -/
  | fillMissing
  /-- Operands: a value and the candidates it is looked for among. -/
  | membership (negated : Bool)
  /-- Operands: a value and the ends of a range. -/
  | between (inclusive : Bool)
  /-- Operands: a condition, the result where it holds, and the result where it does not. -/
  | conditional
  /-- Operands: the parts of `Branches`. -/
  | switch (hasCase hasDefault : Bool)
  /-- Operand: the value to be sorted into bins. -/
  | cut (bins : Bins)
  /-- Operand: the value to be converted to the type of the node. -/
  | cast
  /-- Operands: the fields that a user function sees. -/
  | map (mapping : Mapping)

namespace Kind

/-- The name of a kind. -/
def name : Kind → String
  | column .. => "column"
  | literal _ => "literal"
  | unary op => op.symbol
  | binary op => op.symbol
  | reduce op => op.symbol
  | fillMissing => "fillna"
  | membership negated => if negated then "notin" else "isin"
  | between _ => "between"
  | conditional => "ifelse"
  | switch .. => "switch"
  | cut _ => "cut"
  | cast => "astype"
  | map _ => "map"

/-- Whether nodes of the kind have no operands. -/
def isLeaf : Kind → Bool
  | column .. | literal _ => true
  | _ => false

/-- The source of a column. -/
def source? : Kind → Option SourceId
  | column _ s => some s
  | _ => none

/-- The value of a literal. -/
def literal? : Kind → Option Value
  | literal v => some v
  | _ => none

/-- The bins of a cut. -/
def bins? : Kind → Option Bins
  | cut b => some b
  | _ => none

/-- The user function of a mapping. -/
def mapping? : Kind → Option Mapping
  | map m => some m
  | _ => none

/-! ## Equality -/

/-- The same kind with the same payload: values by `Value.same`, functions by name and identity. -/
def same : Kind → Kind → Bool
  | column n s, column n' s' => n == n' && s == s'
  | literal v, literal v' => v.same v'
  | unary op, unary op' => op == op'
  | binary op, binary op' => op == op'
  | reduce op, reduce op' => op == op'
  | fillMissing, fillMissing => true
  | membership b, membership b' => b == b'
  | between b, between b' => b == b'
  | conditional, conditional => true
  | switch c d, switch c' d' => c == c' && d == d'
  | cut b, cut b' => b.same b'
  | cast, cast => true
  | map m, map m' => m.same m'
  | _, _ => false

instance : BEq Kind := ⟨same⟩

/-- The items of a kind: its place among the kinds, then its payload. -/
def feed : Kind → List HashItem
  | column n s => [.number 0, .text n, .number s.number]
  | literal v => .number 1 :: v.feed
  | unary op => [.number 2, .text op.tag]
  | binary op => [.number 3, .text op.tag]
  | reduce op => [.number 4, .text op.tag]
  | fillMissing => [.number 5]
  | membership b => [.number 6, .ofBool b]
  | between b => [.number 7, .ofBool b]
  | conditional => [.number 8]
  | switch c d => [.number 9, .ofBool c, .ofBool d]
  | cut b => .number 10 :: HashItem.ofList Value.feed b.edges
      ++ HashItem.ofList (fun l => [.text l]) b.labels
      ++ [.ofBool b.right, .ofBool b.includeLowest, .ofBool b.includeUnder, .ofBool b.includeOver]
  | cast => [.number 11]
  | map m => .number 12 :: m.function.feed ++ [.text m.axis.tag]
      ++ HashItem.ofOption (fun (i : Nat) => [.number i]) m.outputIndex

/-! ## Text -/

/-- Texts with a comma between neighbours. -/
def commas (texts : List String) : String := ", ".intercalate texts

/-- The text of a switch from the texts of its parts. -/
def switchText (b : Branches String) : String :=
  "switch(" ++ (match b.case with | some c => c ++ ", " | none => "")
    ++ commas (b.conditions.zipWith (fun c t => c ++ " => " ++ t) b.thens)
    ++ (match b.default with | some d => ", default => " ++ d | none => "") ++ ")"

/-- The text of a node from its kind, its type and the texts of its operands. What has no form of its own
is written as a call. -/
def write (kind : Kind) (type : ElementType) (operands : List String) : String :=
  match kind, operands with
  | column name _, _ => name
  | literal v, _ => v.text
  | unary .not, x :: _ => "NOT " ++ x
  | unary .negate, x :: _ => "-" ++ x
  | binary op, x :: y :: _ => "(" ++ x ++ " " ++ op.symbol ++ " " ++ y ++ ")"
  | membership negated, x :: xs =>
    (membership negated).name ++ "(" ++ x ++ ", [" ++ commas xs ++ "])"
  | switch hasCase hasDefault, xs => switchText (.ofOperands hasCase hasDefault xs)
  | cut bins, x :: _ => "cut(" ++ x ++ ", [" ++ commas (bins.edges.map Value.text) ++ "])"
  | cast, x :: _ => "astype(" ++ x ++ ", " ++ type.name ++ ")"
  | map m, xs => m.function.name ++ "(" ++ commas xs ++ ")"
  | kind, xs => kind.name ++ "(" ++ commas xs ++ ")"

end Kind

end Columnar
