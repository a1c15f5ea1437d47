import Columnar.Value.Basic

/-!
# `Columnar.Bins` — intervals of numbers and their labels

Edges in ascending order cut the numbers into bins. Each inner bin lies between two neighbouring edges, and
there may be a bin below the first edge and one above the last.

## Contents
- `Interval`, `Interval.label`: a bin and how it is written.
- `BinOptions`: which ends are closed, and which outer bins there are.
- `intervals`: the bins that edges and options define.
- `Bins`: edges with the labels of their bins.
-/

namespace Columnar

/-! ## Intervals -/

/-- An interval of numbers. A missing end is infinite. -/
structure Interval where
  lower : Option Value
  upper : Option Value
  closedLower : Bool
  closedUpper : Bool
  deriving DecidableEq, Repr

/-- An interval written with square brackets at closed ends and round ones at open ends. -/
def Interval.label (i : Interval) : String :=
  (if i.closedLower then "[" else "(")
    ++ (match i.lower with | some v => v.text | none => "-inf") ++ ", "
    ++ (match i.upper with | some v => v.text | none => "inf")
    ++ (if i.closedUpper then "]" else ")")

/-! ## Options -/

/-- How edges define bins. -/
structure BinOptions where
  /-- Labels to use in place of the written intervals. -/
  labels : Option (List String) := none
  /-- Bins are closed on the right, or else on the left. -/
  right : Bool := true
  /-- The outermost end of the inner bins that would be open is closed. -/
  includeLowest : Bool := false
  /-- There is a bin below the first edge. -/
  includeUnder : Bool := false
  /-- There is a bin above the last edge. -/
  includeOver : Bool := false
  deriving DecidableEq, Repr

namespace BinOptions

/-- The bins between neighbouring edges. -/
def innerIntervals (o : BinOptions) (edges : List Value) : List Interval :=
  let pairs := edges.zip edges.tail
  pairs.mapIdx fun i p =>
    ⟨some p.1, some p.2, !o.right || (o.includeLowest && i == 0),
      o.right || (o.includeLowest && i + 1 == pairs.length)⟩

/-- The bin below the first edge. -/
def underInterval (o : BinOptions) (edges : List Value) : Interval :=
  ⟨none, edges.head?, false, o.right⟩

/-- The bin above the last edge. -/
def overInterval (o : BinOptions) (edges : List Value) : Interval :=
  ⟨edges.getLast?, none, !o.right, false⟩

/-- All bins, the lowest first. -/
def intervals (o : BinOptions) (edges : List Value) : List Interval :=
  (if o.includeUnder then [o.underInterval edges] else []) ++ o.innerIntervals edges
    ++ (if o.includeOver then [o.overInterval edges] else [])

/-- The number of bins that so many edges define. -/
def binCount (o : BinOptions) (edges : Nat) : Nat :=
  edges - 1 + o.includeUnder.toNat + o.includeOver.toNat

end BinOptions

/-! ## Labelled bins -/

/-- Edges, and one label for each of their bins. -/
structure Bins where
  edges : List Value
  labels : List String
  right : Bool
  includeLowest : Bool
  includeUnder : Bool
  includeOver : Bool
  deriving DecidableEq, Repr

/-- The number of bins. -/
def Bins.count (b : Bins) : Nat := b.labels.length

/-- Equal edges, the same labels and the same options. -/
def Bins.same (a b : Bins) : Bool :=
  a.edges.isEqv b.edges Value.same && a.labels == b.labels && a.right == b.right
    && a.includeLowest == b.includeLowest && a.includeUnder == b.includeUnder
    && a.includeOver == b.includeOver

end Columnar
