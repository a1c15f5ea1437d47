import Columnar.Expr.Checker

/-!
# `Columnar.Expr.Cut` — numbers sorted into labelled bins

Edges are numbers in ascending order, compared as doubles. So many edges define one bin less, and one more
for each open bin; a single edge is enough only between two open bins.
-/

namespace Columnar.Expr

/-- The double that an edge is compared by. -/
def edgeBound (c : Checker) (edge : Value) : Except BuildError (Binary .double) := do
  c.expectNumeric edge.type
  match edge.asDouble with
  | some x => if x.isNaN then c.invalidArgument ("bin edge " ++ edge.text ++ " is not a number") else pure x
  | none => c.invalidArgument ("bin edge " ++ edge.text ++ " is not a number")

/-- Whether each number is less than the next. -/
def ascending (bounds : List (Binary .double)) : Bool :=
  (bounds.zip bounds.tail).all fun p => p.1.rank < p.2.rank

/-- The labels of the bins: those given, which must be as many as the bins, or else the intervals. -/
def binLabels (c : Checker) (edges : List Value) (o : BinOptions) : Except BuildError (List String) :=
  match o.labels with
  | some labels => do
    let count := o.binCount edges.length
    c.expectCount (labels.length == count) (String.ofList (Text.digits count) ++ " labels")
      labels.length
    pure labels
  | none => pure ((o.intervals edges).map Interval.label)

/-- The bins that edges and options define. -/
def makeBins (c : Checker) (edges : List Value) (o : BinOptions) : Except BuildError Bins := do
  c.expectCount (!edges.isEmpty) "at least 1 bin edge" 0
  c.expectCount (2 ≤ edges.length || (o.includeUnder && o.includeOver))
    "at least 2 bin edges, or 1 with both open bins" edges.length
  let bounds ← edges.mapM (edgeBound c)
  if !ascending bounds then c.invalidArgument "bin edges must be strictly increasing"
  let labels ← binLabels c edges o
  pure ⟨edges, labels, o.right, o.includeLowest, o.includeUnder, o.includeOver⟩

/-- The label of the bin that a number falls into. -/
def cut [Hasher] (e : Expr) (edges : List Value) (o : BinOptions) : Build Expr := do
  let c : Checker := ⟨"cut"⟩
  c.expectNumeric e.type
  let bins ← makeBins c edges o
  .node (.cut bins) .string e.shape [e]

end Columnar.Expr
