import Columnar.Expr.Basic

/-!
# `Columnar.Expr.Query` — looking at expressions

## Contents
- `candidates`, `branches` and the parts of a switch.
- `walk`: all nodes, each before the nodes below it.
- `sources`, `columnRefs`: the sources and the distinct columns that an expression refers to.
- `text`: an expression written out.
-/

namespace Columnar.Expr

/-! ## Parts -/

/-- The candidates of a membership test. -/
def candidates (e : Expr) : List Expr :=
  match e.kind with
  | .membership _ => e.operands.drop 1
  | _ => []

/-- The parts of a switch. -/
def branches (e : Expr) : Branches Expr :=
  match e.kind with
  | .switch hasCase hasDefault => .ofOperands hasCase hasDefault e.operands
  | _ => ⟨none, [], [], none⟩

/-! ## All nodes -/

mutual

/-- The node itself, then all nodes below it, operand by operand. A shared node is listed at each of its
places. -/
def walk : Expr → List Expr
  | node i h k t s n os => node i h k t s n os :: walkList os

/-- The nodes of several expressions, one expression after the other. -/
def walkList : List Expr → List Expr
  | [] => []
  | e :: es => e.walk ++ walkList es

end

theorem walkList_eq_flatMap : ∀ es : List Expr, walkList es = es.flatMap walk
  | [] => by simp [walkList]
  | e :: es => by simp [walkList, walkList_eq_flatMap es]

/-- A node comes first, and the walks of its operands follow. -/
theorem walk_eq_cons (e : Expr) : e.walk = e :: e.operands.flatMap walk := by
  cases e
  rw [walk, walkList_eq_flatMap]
  rfl

/-- Puts a source into an ascending list of distinct sources. -/
def insertSource (s : SourceId) : List SourceId → List SourceId
  | [] => [s]
  | t :: ts =>
    if s.number < t.number then s :: t :: ts
    else if s.number = t.number then t :: ts
    else t :: insertSource s ts

/-- The sources of all columns, in ascending order. -/
def sources (e : Expr) : List SourceId :=
  (e.walk.filterMap (fun n => n.kind.source?)).foldr insertSource []

/-- Whether the node is a column. -/
def isColumn (e : Expr) : Bool := e.kind.source?.isSome

/-- Appends a node to a list of distinct nodes, unless an equal one is there. -/
def addDistinct (found : List Expr) (e : Expr) : List Expr :=
  if found.any (·.same e) then found else found ++ [e]

/-- The distinct columns, in the order of their first places. -/
def columnRefs (e : Expr) : List Expr := (e.walk.filter isColumn).foldl addDistinct []

/-! ## Text -/

mutual

/-- The expression written out, with the name given to it at the end. -/
def text : Expr → String
  | node _ _ k t _ n os =>
    k.write t (textList os) ++ (match n with | some n => " AS " ++ n | none => "")

/-- The texts of several expressions. -/
def textList : List Expr → List String
  | [] => []
  | e :: es => e.text :: textList es

end

theorem textList_eq_map : ∀ es : List Expr, textList es = es.map text
  | [] => by simp [textList]
  | e :: es => by simp [textList, textList_eq_map es]

end Columnar.Expr
