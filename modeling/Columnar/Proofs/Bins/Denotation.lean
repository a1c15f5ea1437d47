import Columnar.Proofs.Bins.Labels

/-!
# `Proofs.Bins.Denotation` — the intervals that generated labels denote

A label is read as an interval between two neighbouring ends, closed where it has a square bracket. The ends are the
edges, and infinities around open bins. Read so, the labels that are generated for bins denote these bins.

## Contents
- `Interval.ofLabel`, `Bins.denoted`: the intervals that labels denote.
- `Bins.denoted_eq`: generated labels denote the bins.
- `BinOptions.getElem?_innerIntervals_iff`, `BinOptions.mem_intervals_iff`: the bins one by one.
-/

namespace Columnar

/-! ## What labels denote -/

namespace Interval

/-- The interval between two ends that a label denotes: closed at a square bracket, open at a round one. -/
def ofLabel (lower upper : Option Value) (label : String) : Interval where
  lower := lower
  upper := upper
  closedLower := label.toList.head? == some '['
  closedUpper := label.toList.getLast? == some ']'

/-- A generated label denotes the bin that it was generated for. -/
theorem ofLabel_label (i : Interval) : ofLabel i.lower i.upper i.label = i := by
  obtain ⟨lower, upper, closedLower, closedUpper⟩ := i
  unfold ofLabel
  rw [label_eq]
  simp only [String.toList_append, mk.injEq, true_and]
  constructor
  · cases closedLower <;> simp
  · cases closedUpper <;> simp [List.getLast?_cons]

end Interval

/-- Where bins begin and end, the lowest first: at the edges, and at an infinity on the far side of an open bin. -/
def BinOptions.ends (o : BinOptions) (edges : List Value) : List (Option Value) :=
  (if o.includeUnder then [none] else []) ++ edges.map some ++ (if o.includeOver then [none] else [])

/-- How the edges define the bins, apart from the labels. -/
def Bins.options (b : Bins) : BinOptions where
  right := b.right
  includeLowest := b.includeLowest
  includeUnder := b.includeUnder
  includeOver := b.includeOver

@[simp] theorem Bins.right_options (b : Bins) : b.options.right = b.right := rfl
@[simp] theorem Bins.includeLowest_options (b : Bins) : b.options.includeLowest = b.includeLowest := rfl
@[simp] theorem Bins.includeUnder_options (b : Bins) : b.options.includeUnder = b.includeUnder := rfl
@[simp] theorem Bins.includeOver_options (b : Bins) : b.options.includeOver = b.includeOver := rfl

/-- The intervals that the labels denote, each between two neighbouring ends. -/
def Bins.denoted (b : Bins) : List Interval :=
  let ends := b.options.ends b.edges
  List.zipWith (fun pair label => .ofLabel pair.1 pair.2 label) (ends.zip ends.tail) b.labels

section

variable {α : Type} {l : List α} {a z : α}

/-- The neighbours in a list that is longer by one at its beginning. -/
theorem zip_tail_cons (h : l.head? = some a) : (z :: l).zip (z :: l).tail = (z, a) :: l.zip l.tail := by
  cases l with
  | nil => cases h
  | cons b l =>
    cases h
    rfl

/-- The neighbours in a list that is longer by one at its end. -/
theorem zip_tail_concat (h : l.getLast? = some a) : (l ++ [z]).zip (l ++ [z]).tail = l.zip l.tail ++ [(a, z)] := by
  induction l with
  | nil => cases h
  | cons b l ih =>
    cases l with
    | nil =>
      cases h
      rfl
    | cons c l =>
      rw [List.getLast?_cons_cons] at h
      simpa using ih h

end

namespace BinOptions

variable {edges : List Value}

theorem map_ends_innerIntervals (o : BinOptions) (edges : List Value) :
    (o.innerIntervals edges).map (fun i => (i.lower, i.upper)) = (edges.map some).zip (edges.map some).tail := by
  unfold innerIntervals
  rw [← List.map_tail, List.zip_map]
  simp only [List.mapIdx_eq_zipIdx_map, List.map_map, Function.comp_def]
  calc (edges.zip edges.tail).zipIdx.map (fun x => (some x.1.1, some x.1.2))
      = ((edges.zip edges.tail).zipIdx.map Prod.fst).map (Prod.map some some) := by
        rw [List.map_map]
        rfl
    _ = (edges.zip edges.tail).map (Prod.map some some) := by rw [List.zipIdx_map_fst]

/-- The bins begin and end where they should. -/
theorem map_ends_intervals (o : BinOptions) (h : edges ≠ []) :
    (o.intervals edges).map (fun i => (i.lower, i.upper)) = (o.ends edges).zip (o.ends edges).tail := by
  have hfirst : (edges.map some).head? = some edges.head? := by
    rw [List.head?_map, List.head?_eq_some_head h]
    rfl
  have hlast : (edges.map some).getLast? = some edges.getLast? := by
    rw [List.getLast?_map, List.getLast?_eq_some_getLast h]
    rfl
  have hover := zip_tail_concat (z := none) hlast
  -- an open bin lies between an infinity and the edge next to it
  unfold intervals ends
  rw [List.map_append, List.map_append, map_ends_innerIntervals]
  cases o.includeUnder with
  | false =>
    cases o.includeOver with
    | false => simp
    | true => exact hover.symm
  | true =>
    cases o.includeOver with
    | false =>
      have hunder := zip_tail_cons (z := none) hfirst
      simpa [underInterval] using hunder.symm
    | true =>
      have hfirst' : (edges.map some ++ [none]).head? = some edges.head? := by
        rw [List.head?_append, hfirst]
        rfl
      have hunder := zip_tail_cons (z := none) hfirst'
      rw [hover] at hunder
      exact hunder.symm

end BinOptions

/-- Generated labels denote the bins. -/
theorem Bins.denoted_eq {b : Bins} (hedges : b.edges ≠ [])
    (hlabels : b.labels = (b.options.intervals b.edges).map Interval.label) :
    b.denoted = b.options.intervals b.edges := by
  unfold denoted
  simp only [← BinOptions.map_ends_intervals _ hedges, hlabels, List.zipWith_map, List.zipWith_self]
  simp only [Interval.ofLabel_label]
  exact List.map_id _

/-! ## The bins one by one -/

namespace BinOptions

variable {o : BinOptions} {edges : List Value} {i : Interval} {k : Nat}

theorem getElem?_innerIntervals_iff : (o.innerIntervals edges)[k]? = some i ↔
    ∃ v w, edges[k]? = some v ∧ edges[k + 1]? = some w ∧ i = ⟨some v, some w,
      !o.right || (o.includeLowest && k == 0), o.right || (o.includeLowest && k + 2 == edges.length)⟩ := by
  have hlast : k + 1 < edges.length →
      (k + 1 == (edges.zip edges.tail).length) = (k + 2 == edges.length) := by
    intro hlt
    rw [Bool.eq_iff_iff, beq_iff_eq, beq_iff_eq, List.length_zip, List.length_tail]
    omega
  unfold innerIntervals
  simp only [List.getElem?_mapIdx, Option.map_eq_some_iff, List.getElem?_zip_eq_some, List.getElem?_tail]
  constructor
  · rintro ⟨⟨v, w⟩, ⟨hv, hw⟩, rfl⟩
    rw [hlast (List.getElem?_eq_some_iff.mp hw).1]
    exact ⟨v, w, hv, hw, rfl⟩
  · rintro ⟨v, w, hv, hw, rfl⟩
    refine ⟨(v, w), ⟨hv, hw⟩, ?_⟩
    rw [hlast (List.getElem?_eq_some_iff.mp hw).1]

theorem mem_outer_iff {c : Bool} {outer : Interval} : i ∈ (if c then [outer] else []) ↔ c = true ∧ i = outer := by
  cases c <;> simp

theorem mem_intervals_iff : i ∈ o.intervals edges ↔ (o.includeUnder = true ∧ i = o.underInterval edges)
    ∨ i ∈ o.innerIntervals edges ∨ (o.includeOver = true ∧ i = o.overInterval edges) := by
  unfold intervals
  rw [List.mem_append, List.mem_append, mem_outer_iff, mem_outer_iff, or_assoc]

end BinOptions

end Columnar
