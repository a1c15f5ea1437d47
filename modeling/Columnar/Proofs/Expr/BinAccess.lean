import Columnar.Expr.Cut
import Columnar.Proofs.Expr.Access

/-!
# `Proofs.Expr.BinAccess` — edges are taken from places that are there

Edges are taken by their places when they are compared, when bins are counted and when bins are labelled. A call
that is refused has no answer but its error, and it is refused before any edge is taken that is not there: so
with accesses that can fail, every call still answers as it does with lists of any length.

## Contents
- `Guarded`: calls that may be refused, and in which an access may fail.
- `windows`, `ascending?`, `intervalLabels?`, `binCount?`: neighbouring edges, labels, and the number of bins.
- `makeBins?`, `Expr.cut?`: the calls.
-/

namespace Columnar

/-! ## Calls -/

/-- A call that may be refused. If an access fails in it, there is no answer at all. -/
abbrev Guarded := ExceptT BuildError Option

namespace Guarded

variable {α β : Type}

/-- What is done without an access. -/
def call (x : Except BuildError α) : Guarded α := ExceptT.mk (some x)

/-- An access. -/
def access (x : Option α) : Guarded α := ExceptT.lift x

theorem access_some_bind (a : α) (f : α → Guarded β) : (access (some a) >>= f) = f a := rfl

/-- Without accesses, two steps are one. -/
theorem call_bind (x : Except BuildError α) (f : α → Except BuildError β) :
    call (x >>= f) = call x >>= fun a => call (f a) := by
  cases x <;> rfl

end Guarded

/-! ## Accesses that succeed -/

section

variable {α β γ : Type}

/-- If every access succeeds, so do all of them. -/
theorem mapM_eq_some_map {g : γ → α} {get? : α → Option β} {f : γ → β} {items : List γ}
    (h : ∀ c ∈ items, get? (g c) = some (f c)) : (items.map g).mapM get? = some (items.map f) := by
  induction items with
  | nil => rfl
  | cons c items ih =>
    rw [List.map_cons, List.mapM_cons, h c List.mem_cons_self, ih fun d hd => h d (List.mem_cons_of_mem _ hd)]
    rfl

theorem allM_eq_some_all {g : γ → α} {test? : α → Option Bool} {p : γ → Bool} {items : List γ}
    (h : ∀ c ∈ items, test? (g c) = some (p c)) : (items.map g).allM test? = some (items.all p) := by
  induction items with
  | nil => rfl
  | cons c items ih =>
    rw [List.map_cons, List.allM, h c List.mem_cons_self, ih fun d hd => h d (List.mem_cons_of_mem _ hd),
      List.all_cons]
    cases p c <;> rfl

/-- Every two neighbours. -/
def windows : List α → List (List α)
  | a :: b :: items => [a, b] :: windows (b :: items)
  | _ => []

/-- Two neighbours are an item and the one behind it. -/
theorem windows_eq_map (items : List α) : windows items = (items.zip items.tail).map fun p => [p.1, p.2] := by
  induction items with
  | nil => rfl
  | cons a items ih =>
    cases items with
    | nil => rfl
    | cons b items =>
      rw [windows, ih]
      rfl

end

/-! ## Edges -/

/-- Whether each number is less than the next. -/
def ascending? (bounds : List (Binary .double)) : Option Bool :=
  (windows bounds).allM fun w => do some ((← w[0]?).rank < (← w[1]?).rank)

theorem ascending?_eq (bounds : List (Binary .double)) : ascending? bounds = some (Expr.ascending bounds) := by
  unfold ascending? Expr.ascending
  rw [windows_eq_map]
  exact allM_eq_some_all fun _ _ => rfl

namespace BinOptions

variable (o : BinOptions) {edges : List Value}

/-- The number of bins that so many edges define. -/
def binCount? (edges : Nat) : Option Nat := do
  some ((← difference? edges 1) + o.includeUnder.toNat + o.includeOver.toNat)

/-- The labels of the bins between neighbouring edges. -/
def innerLabels? (edges : List Value) : Option (List String) :=
  (windows edges).zipIdx.mapM fun (w, i) => do
    some (Interval.label ⟨some (← w[0]?), some (← w[1]?), !o.right || (o.includeLowest && i == 0),
      o.right || (o.includeLowest && i == edges.length - 2)⟩)

/-- The label of the bin below the first edge, if there is such a bin. -/
def underLabel? (edges : List Value) : Option (List String) :=
  if o.includeUnder then do some [Interval.label ⟨none, some (← edges[0]?), false, o.right⟩] else some []

/-- The label of the bin above the last edge, if there is such a bin. -/
def overLabel? (edges : List Value) : Option (List String) :=
  if o.includeOver then do
    let last ← difference? edges.length 1
    some [Interval.label ⟨some (← edges[last]?), none, !o.right, false⟩]
  else some []

/-- The labels of all bins, the lowest first. -/
def intervalLabels? (edges : List Value) : Option (List String) := do
  some ((← o.underLabel? edges) ++ (← o.innerLabels? edges) ++ (← o.overLabel? edges))

/-- The last bin between two edges is the one whose place is two less than the number of edges. -/
theorem innerLabels?_eq (edges : List Value) :
    o.innerLabels? edges = some ((o.innerIntervals edges).map Interval.label) := by
  unfold innerLabels? innerIntervals
  rw [windows_eq_map, List.zipIdx_map, List.mapIdx_eq_zipIdx_map, List.map_map]
  refine mapM_eq_some_map fun ⟨p, i⟩ hp => ?_
  have hplace : i < (edges.zip edges.tail).length := by
    have := List.mem_zipIdx hp
    omega
  have hlast : (i == edges.length - 2) = (i + 1 == (edges.zip edges.tail).length) := by
    rw [List.length_zip, List.length_tail] at hplace ⊢
    rw [Bool.eq_iff_iff, beq_iff_eq, beq_iff_eq]
    omega
  simp only [Function.comp, ← hlast]
  rfl

section

variable (h : edges ≠ [])

include h

theorem binCount?_eq : o.binCount? edges.length = some (o.binCount edges.length) := by
  obtain ⟨v, edges, rfl⟩ := List.exists_cons_of_ne_nil h
  unfold binCount?
  rw [List.length_cons, difference?_add]
  rfl

theorem underLabel?_eq : o.underLabel? edges
    = some ((if o.includeUnder then [o.underInterval edges] else []).map Interval.label) := by
  obtain ⟨v, edges, rfl⟩ := List.exists_cons_of_ne_nil h
  unfold underLabel?
  cases o.includeUnder <;> rfl

theorem overLabel?_eq : o.overLabel? edges
    = some ((if o.includeOver then [o.overInterval edges] else []).map Interval.label) := by
  have hlast : edges[edges.length - 1]? = edges.getLast? := (List.getLast?_eq_getElem? ..).symm
  have hlength : difference? edges.length 1 = some (edges.length - 1) := if_pos (List.length_pos_of_ne_nil h)
  unfold overLabel? overInterval
  cases o.includeOver with
  | false => rfl
  | true =>
    rw [if_pos rfl, if_pos rfl, hlength]
    simp only [Option.bind_eq_bind, Option.bind_some, hlast]
    rw [List.getLast?_eq_some_getLast h]
    rfl

theorem intervalLabels?_eq : o.intervalLabels? edges = some ((o.intervals edges).map Interval.label) := by
  unfold intervalLabels? intervals
  rw [o.underLabel?_eq h, o.innerLabels?_eq, o.overLabel?_eq h, List.map_append, List.map_append]
  rfl

end

end BinOptions

/-! ## Cutting -/

namespace Expr

open Guarded

/-- The labels of the bins. The bins are counted whether labels are given or not. -/
def binLabels? (c : Checker) (edges : List Value) (o : BinOptions) : Guarded (List String) := do
  let count ← access (o.binCount? edges.length)
  match o.labels with
  | some labels => do
    call (c.expectCount (labels.length == count) (String.ofList (Text.digits count) ++ " labels") labels.length)
    pure labels
  | none => access (o.intervalLabels? edges)

/-- The bins that edges and options define. -/
def makeBins? (c : Checker) (edges : List Value) (o : BinOptions) : Guarded Bins := do
  call (c.expectCount (!edges.isEmpty) "at least 1 bin edge" 0)
  call (c.expectCount (2 ≤ edges.length || (o.includeUnder && o.includeOver))
    "at least 2 bin edges, or 1 with both open bins" edges.length)
  let bounds ← call (edges.mapM (edgeBound c))
  if !(← access (ascending? bounds)) then call (c.invalidArgument "bin edges must be strictly increasing")
  let labels ← binLabels? c edges o
  pure ⟨edges, labels, o.right, o.includeLowest, o.includeUnder, o.includeOver⟩

/-- The label of the bin that a number falls into. -/
def cut? [Hasher] (e : Expr) (edges : List Value) (o : BinOptions) (s : Supply) : Guarded (Expr × Supply) := do
  let c : Checker := ⟨"cut"⟩
  call (c.expectNumeric e.type)
  let bins ← makeBins? c edges o
  call (Build.node (.cut bins) .string e.shape [e] s)

theorem binLabels?_eq (c : Checker) {edges : List Value} (h : edges ≠ []) (o : BinOptions) :
    binLabels? c edges o = call (binLabels c edges o) := by
  unfold binLabels? binLabels
  rw [o.binCount?_eq h, access_some_bind]
  cases o.labels with
  | none =>
    simp only [o.intervalLabels?_eq h]
    rfl
  | some labels =>
    simp only [call_bind]
    rfl

/-- Without edges the call is refused at once, and with edges no access fails. -/
theorem makeBins?_eq (c : Checker) (edges : List Value) (o : BinOptions) :
    makeBins? c edges o = call (makeBins c edges o) := by
  unfold makeBins? makeBins
  cases edges with
  | nil => rfl
  | cons v edges =>
    have hlabels := binLabels?_eq c (List.cons_ne_nil v edges) o
    simp only [ascending?_eq, hlabels, access_some_bind, call_bind]
    refine bind_congr fun _ => bind_congr fun _ => bind_congr fun bounds => ?_
    cases hascending : ascending bounds with
    | false => rfl
    | true =>
      simp only [Bool.not_true, Bool.false_eq_true, if_false, call_bind]
      rfl

theorem cut?_eq [Hasher] (e : Expr) (edges : List Value) (o : BinOptions) (s : Supply) :
    e.cut? edges o s = call (e.cut edges o s) := by
  unfold cut? cut
  simp only [makeBins?_eq]
  generalize Checker.expectNumeric ⟨"cut"⟩ e.type = numeric
  generalize makeBins ⟨"cut"⟩ edges o = bins
  cases numeric with
  | error _ => rfl
  | ok _ => cases bins <;> rfl

end Expr

end Columnar
