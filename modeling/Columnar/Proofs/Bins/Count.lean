import Columnar.Proofs.Bins.Denotation

/-!
# `Proofs.Bins.Count` — as many labels as bins

The number of bins is computed from the number of edges and the two open bins, and the labels are written from the
edges themselves. Both come to the same number, for any edges and options. The label of an inner bin shows the two
edges next to each other that it lies between.

## Contents
- `length_innerIntervals`, `length_intervals`: the bins, counted.
- `getElem?_intervals`: the inner bins, behind the open one below.
- `labelsFor`, `length_labelsFor`, `getElem?_map_label`: labels that are given, or else generated.
- `binCount_pos`: there is always a bin.
-/

namespace Columnar.BinOptions

variable {o : BinOptions} {edges : List Value} {v w : Value} {k : Nat}

theorem length_innerIntervals (o : BinOptions) (edges : List Value) :
    (o.innerIntervals edges).length = edges.length - 1 := by
  unfold innerIntervals
  rw [List.length_mapIdx, List.length_zip, List.length_tail]
  omega

/-- An open bin counts as one, if it is there. -/
theorem length_outer (c : Bool) (outer : Interval) : (if c then [outer] else []).length = c.toNat := by
  cases c <;> rfl

/-- There are as many bins as are counted. -/
theorem length_intervals (o : BinOptions) (edges : List Value) :
    (o.intervals edges).length = o.binCount edges.length := by
  unfold intervals binCount
  rw [List.length_append, List.length_append, length_outer, length_outer, length_innerIntervals]
  omega

/-- The inner bins come behind the open bin below the first edge. -/
theorem getElem?_intervals (h : k + 1 < edges.length) :
    (o.intervals edges)[o.includeUnder.toNat + k]? = (o.innerIntervals edges)[k]? := by
  have hinner : k < (o.innerIntervals edges).length := by
    rw [length_innerIntervals]
    omega
  unfold intervals
  rw [List.append_assoc, ← length_outer o.includeUnder (o.underInterval edges),
    List.getElem?_append_right (Nat.le_add_right ..), Nat.add_sub_cancel_left, List.getElem?_append_left hinner]

/-! ## Labels -/

/-- The labels that are given, or else those that are generated. -/
def labelsFor (o : BinOptions) (edges : List Value) : List String :=
  o.labels.getD ((o.intervals edges).map Interval.label)

/-- Labels are as many as bins if those that are given are. -/
theorem length_labelsFor (h : ∀ labels, o.labels = some labels → labels.length = o.binCount edges.length) :
    (o.labelsFor edges).length = o.binCount edges.length := by
  unfold labelsFor
  cases hlabels : o.labels with
  | none => exact (List.length_map _).trans (o.length_intervals edges)
  | some labels => exact h labels hlabels

/-- The generated label of an inner bin shows the edges that it lies between. -/
theorem getElem?_map_label (hv : edges[k]? = some v) (hw : edges[k + 1]? = some w) :
    ((o.intervals edges).map Interval.label)[o.includeUnder.toNat + k]?
      = some ((if !o.right || (o.includeLowest && k == 0) then "[" else "(") ++ v.text ++ ", " ++ w.text
        ++ (if o.right || (o.includeLowest && k + 2 == edges.length) then "]" else ")")) := by
  have hlt : k + 1 < edges.length := (List.getElem?_eq_some_iff.mp hw).1
  rw [List.getElem?_map, getElem?_intervals hlt, getElem?_innerIntervals_iff.mpr ⟨v, w, hv, hw, rfl⟩]
  rfl

/-- Edges that are enough for the options have a bin. -/
theorem binCount_pos (h : 2 ≤ edges.length ∨ o.includeUnder = true ∧ o.includeOver = true) :
    1 ≤ o.binCount edges.length := by
  unfold binCount
  rcases h with h | ⟨hunder, _⟩
  · omega
  · rw [hunder, Bool.toNat_true]
    omega

end Columnar.BinOptions
