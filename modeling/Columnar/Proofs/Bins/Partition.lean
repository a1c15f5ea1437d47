import Columnar.Proofs.Bins.Denotation
import Columnar.Proofs.Binary.Number
import Mathlib.Data.List.Pairwise

/-!
# `Proofs.Bins.Partition` — bins lie side by side

The generated labels of edges in order denote bins of which each lies above the one before it. No number between the
edges is left out, nor one below or above them where there is an open bin. Bins that meet at an edge share it in one
case only: if the outermost inner bin is closed towards an open bin that has the edge as well.

## Contents
- `Interval.Contains`, `Increasing`: numbers in intervals, for any reading of the edges as numbers.
- `Bins.Covers`, `Bins.Shared`, `Bins.Partitions`: which numbers lie in a bin, and which in two.
- `intervals_ordered`, `exists_interval`, `exists_shared`: each bin above the ones before, nothing left out, and
  shared edges.
- `Bins.partitions`: generated labels partition the numbers.
-/

namespace Columnar

/-! ## Numbers in bins -/

namespace Interval

variable (number : Value → Option Extended)

/-- A number lies above the lower end of an interval, or at it if that is closed. -/
def Above (lower : Option Value) (closed : Bool) (x : Extended) : Prop :=
  match lower with
  | none => ⊥ < x
  | some v => ∃ m, number v = some m ∧ (m < x ∨ closed = true ∧ m = x)

/-- A number lies below the upper end of an interval, or at it if that is closed. -/
def Below (upper : Option Value) (closed : Bool) (x : Extended) : Prop :=
  match upper with
  | none => x < ⊤
  | some v => ∃ m, number v = some m ∧ (x < m ∨ closed = true ∧ x = m)

/-- A number lies in an interval between edges that are read as numbers. -/
structure Contains (i : Interval) (x : Extended) : Prop where
  lower : Above number i.lower i.closedLower x
  upper : Below number i.upper i.closedUpper x

variable {number} {i j : Interval} {v w : Value} {m n x y : Extended}

/-- Of two intervals the one ends before the other begins, or both have the edge at which they meet. -/
theorem Contains.lt_or_eq (hi : i.Contains number x) (hj : j.Contains number y) (hv : i.upper = some v)
    (hw : j.lower = some w) (hm : number v = some m) (hn : number w = some n) (hle : m ≤ n) :
    x < y ∨ (x = y ∧ x = m ∧ m = n ∧ i.closedUpper = true ∧ j.closedLower = true) := by
  have hx := hi.upper
  have hy := hj.lower
  rw [hv] at hx
  rw [hw] at hy
  obtain ⟨m', hm', hx⟩ := hx
  obtain ⟨n', hn', hy⟩ := hy
  rw [hm, Option.some.injEq] at hm'
  rw [hn, Option.some.injEq] at hn'
  subst hm' hn'
  rcases hx with hx | ⟨hci, rfl⟩
  · left
    rcases hy with hy | ⟨_, rfl⟩
    · exact (hx.trans_le hle).trans hy
    · exact hx.trans_le hle
  · rcases hy with hy | ⟨hcj, rfl⟩
    · exact .inl (hle.trans_lt hy)
    · rcases hle.lt_or_eq with hlt | rfl
      · exact .inl hlt
      · exact .inr ⟨rfl, rfl, rfl, hci, hcj⟩

end Interval

/-- Edges that are read as numbers, each less than all that follow. -/
structure Increasing (number : Value → Option Extended) (edges : List Value) : Prop where
  denotes : ∀ v ∈ edges, ∃ n, number v = some n
  ordered : edges.Pairwise fun v w => ∀ m n, number v = some m → number w = some n → m < n

namespace Increasing

variable {number : Value → Option Extended} {edges : List Value} {v w : Value} {m n : Extended} {k l : Nat}

theorem exists_number (h : Increasing number edges) (hv : edges[k]? = some v) : ∃ m, number v = some m :=
  h.denotes v (List.mem_of_getElem? hv)

theorem lt (h : Increasing number edges) (hv : edges[k]? = some v) (hw : edges[l]? = some w) (hm : number v = some m)
    (hn : number w = some n) (hkl : k < l) : m < n := by
  obtain ⟨hk, rfl⟩ := List.getElem?_eq_some_iff.mp hv
  obtain ⟨hl, rfl⟩ := List.getElem?_eq_some_iff.mp hw
  exact List.pairwise_iff_getElem.mp h.ordered k l hk hl hkl m n hm hn

theorem le (h : Increasing number edges) (hv : edges[k]? = some v) (hw : edges[l]? = some w) (hm : number v = some m)
    (hn : number w = some n) (hkl : k ≤ l) : m ≤ n := by
  rcases hkl.lt_or_eq with hkl | rfl
  · exact (h.lt hv hw hm hn hkl).le
  · rw [hv, Option.some.injEq] at hw
    rw [hw, hn, Option.some.injEq] at hm
    exact hm.ge

/-- Edges that are read as one number are in one place. -/
theorem eq (h : Increasing number edges) (hv : edges[k]? = some v) (hw : edges[l]? = some w) (hm : number v = some m)
    (hn : number w = some n) (hmn : m = n) : k = l := by
  rcases Nat.lt_trichotomy k l with hkl | hkl | hkl
  · exact absurd hmn (h.lt hv hw hm hn hkl).ne
  · exact hkl
  · exact absurd hmn (h.lt hw hv hn hm hkl).ne'

theorem exists_first (h : Increasing number edges) (hlength : 0 < edges.length) :
    ∃ v m, edges.head? = some v ∧ edges[0]? = some v ∧ number v = some m := by
  have hfirst : edges[0]? = some edges[0] := List.getElem?_eq_getElem hlength
  obtain ⟨m, hm⟩ := h.exists_number hfirst
  exact ⟨_, m, List.head?_eq_getElem? ▸ hfirst, hfirst, hm⟩

theorem exists_last (h : Increasing number edges) (hlength : 0 < edges.length) :
    ∃ v m, edges.getLast? = some v ∧ edges[edges.length - 1]? = some v ∧ number v = some m := by
  have hlast : edges[edges.length - 1]? = some edges[edges.length - 1] :=
    List.getElem?_eq_getElem (Nat.sub_lt hlength Nat.one_pos)
  obtain ⟨m, hm⟩ := h.exists_number hlast
  exact ⟨_, m, List.getLast?_eq_getElem? ▸ hlast, hlast, hm⟩

end Increasing

/-! ## Items of a list -/

section

variable {ι : Type} {l m : List ι} {p : ι → Prop} {a b i j : ι}

/-- What fails at the first item of a list and holds at the last begins to hold somewhere. -/
theorem exists_step (ha : l.head? = some a) (hb : l.getLast? = some b) (hfirst : ¬ p a) (hlast : p b) :
    ∃ (k : Nat) (i j : ι), l[k]? = some i ∧ l[k + 1]? = some j ∧ ¬ p i ∧ p j := by
  induction l generalizing a with
  | nil => cases ha
  | cons c l ih =>
    cases ha
    cases l with
    | nil =>
      cases hb
      exact absurd hlast hfirst
    | cons d l =>
      by_cases hd : p d
      · exact ⟨0, c, d, rfl, rfl, hfirst, hd⟩
      · rw [List.getLast?_cons_cons] at hb
        obtain ⟨k, i, j, hi, hj, hstep⟩ := ih rfl hb hd
        exact ⟨k + 1, i, j, hi, hj, hstep⟩

theorem existsUnique_getElem? (hone : l.Pairwise fun i j => ¬ (p i ∧ p j)) (h : ∃ i ∈ l, p i) :
    ∃! k : Nat, ∃ i, l[k]? = some i ∧ p i := by
  obtain ⟨i, hi, hpi⟩ := h
  obtain ⟨k, hk⟩ := List.getElem?_of_mem hi
  refine ⟨k, ⟨i, hk, hpi⟩, ?_⟩
  rintro k' ⟨j, hk', hpj⟩
  obtain ⟨hlt, rfl⟩ := List.getElem?_eq_some_iff.mp hk
  obtain ⟨hlt', rfl⟩ := List.getElem?_eq_some_iff.mp hk'
  rw [List.pairwise_iff_getElem] at hone
  rcases Nat.lt_trichotomy k' k with hkk | hkk | hkk
  · exact absurd ⟨hpj, hpi⟩ (hone k' k hlt' hlt hkk)
  · exact hkk
  · exact absurd ⟨hpi, hpj⟩ (hone k k' hlt hlt' hkk)

theorem exists_lt_getElem?_append (hi : i ∈ l) (hj : j ∈ m) :
    ∃ k k' : Nat, k < k' ∧ (l ++ m)[k]? = some i ∧ (l ++ m)[k']? = some j := by
  obtain ⟨k, hk⟩ := List.getElem?_of_mem hi
  obtain ⟨k', hk'⟩ := List.getElem?_of_mem hj
  have hlt : k < l.length := (List.getElem?_eq_some_iff.mp hk).1
  refine ⟨k, l.length + k', by omega, ?_, ?_⟩
  · rw [List.getElem?_append_left hlt, hk]
  · rw [List.getElem?_append_right (Nat.le_add_right ..), Nat.add_sub_cancel_left, hk']

end

/-! ## What the bins hold -/

namespace Bins

variable (number : Value → Option Extended) (b : Bins)

/-- The numbers that the bins are meant for: those between the first and the last edge, those below where there is
an open bin, those above where there is one, and the inner edges. -/
inductive Covers (x : Extended) : Prop
  | between {v w : Value} {m n : Extended} : b.edges.head? = some v → b.edges.getLast? = some w →
      number v = some m → number w = some n → m < x → x < n → Covers x
  | below {v : Value} {m : Extended} : b.includeUnder = true → b.edges.head? = some v → number v = some m →
      ⊥ < x → x < m → Covers x
  | above {v : Value} {m : Extended} : b.includeOver = true → b.edges.getLast? = some v → number v = some m →
      m < x → x < ⊤ → Covers x
  | inner {v : Value} : v ∈ b.edges.tail.dropLast → number v = some x → Covers x

/-- The edges that are in two bins: where the outermost inner bin is closed towards an open bin that has the edge
as well. -/
inductive Shared (x : Extended) : Prop
  | first {v : Value} : b.includeLowest = true → b.right = true → b.includeUnder = true → 2 ≤ b.edges.length →
      b.edges.head? = some v → number v = some x → ⊥ < x → Shared x
  | last {v : Value} : b.includeLowest = true → b.right = false → b.includeOver = true → 2 ≤ b.edges.length →
      b.edges.getLast? = some v → number v = some x → x < ⊤ → Shared x

/-- The labels denote intervals of which each lies above the ones before, apart from an edge that two of them share.
Every number that the bins are meant for lies in exactly one. -/
structure Partitions : Prop where
  ordered : b.denoted.Pairwise fun (i j : Interval) =>
    ∀ x y, i.Contains number x → j.Contains number y → x < y ∨ (x = y ∧ b.Shared number x)
  covers : ∀ x, b.Covers number x → ∃! k : Nat, ∃ i : Interval, b.denoted[k]? = some i ∧ i.Contains number x
  shared : ∀ x, b.Shared number x → ∃ k l : Nat, ∃ i j : Interval, k < l
    ∧ b.denoted[k]? = some i ∧ b.denoted[l]? = some j ∧ i.Contains number x ∧ j.Contains number x

variable {number b} {i j : Interval} {x y : Extended}

/-! ### One above the other -/

/-- Of two inner bins the one lies above the other. -/
theorem inner_lt_inner (h : Increasing number b.edges) :
    (b.options.innerIntervals b.edges).Pairwise fun i j =>
      ∀ x y, i.Contains number x → j.Contains number y → x < y := by
  rw [List.pairwise_iff_getElem]
  intro k l hk hl hkl x y hx hy
  obtain ⟨v, w, hv, hw, hi⟩ := BinOptions.getElem?_innerIntervals_iff.mp (List.getElem?_eq_getElem hk)
  obtain ⟨v', w', hv', hw', hj⟩ := BinOptions.getElem?_innerIntervals_iff.mp (List.getElem?_eq_getElem hl)
  rw [hi] at hx
  rw [hj] at hy
  obtain ⟨m, hm⟩ := h.exists_number hw
  obtain ⟨n, hn⟩ := h.exists_number hv'
  rcases hx.lt_or_eq hy rfl rfl hm hn (h.le hw hv' hm hn hkl) with hlt | ⟨_, _, hmn, hupper, hlower⟩
  · exact hlt
  · -- they meet, so the upper bin is not the first and the lower one is not the last
    obtain rfl := h.eq hw hv' hm hn hmn
    have hlength := (List.getElem?_eq_some_iff.mp hw').1
    have hright : b.right = false := by simpa using hlower
    have hlast : k + 2 = b.edges.length := by
      simp [hright] at hupper
      exact hupper.2
    omega

theorem under_lt_inner (h : Increasing number b.edges) (hunder : b.includeUnder = true)
    (hj : j ∈ b.options.innerIntervals b.edges) (hx : (b.options.underInterval b.edges).Contains number x)
    (hy : j.Contains number y) : x < y ∨ (x = y ∧ b.Shared number x) := by
  obtain ⟨k, hk⟩ := List.getElem?_of_mem hj
  obtain ⟨v, w, hv, hw, rfl⟩ := BinOptions.getElem?_innerIntervals_iff.mp hk
  have hlength : k + 1 < b.edges.length := (List.getElem?_eq_some_iff.mp hw).1
  obtain ⟨first, m, hhead, hfirst, hm⟩ := h.exists_first (by omega)
  obtain ⟨n, hn⟩ := h.exists_number hv
  have hle : m ≤ n := h.le hfirst hv hm hn (Nat.zero_le k)
  rcases hx.lt_or_eq hy hhead rfl hm hn hle with hlt | ⟨rfl, rfl, rfl, hright, hclosed⟩
  · exact .inl hlt
  · -- the inner bin is the first, and closed towards the open bin
    obtain rfl := h.eq hfirst hv hm hn rfl
    have hright : b.right = true := hright
    have hlowest : b.includeLowest = true := by simpa [hright] using hclosed
    exact .inr ⟨rfl, .first hlowest hright hunder (by omega) hhead hm hx.lower⟩

theorem inner_lt_over (h : Increasing number b.edges) (hover : b.includeOver = true)
    (hi : i ∈ b.options.innerIntervals b.edges) (hx : i.Contains number x)
    (hy : (b.options.overInterval b.edges).Contains number y) : x < y ∨ (x = y ∧ b.Shared number x) := by
  obtain ⟨k, hk⟩ := List.getElem?_of_mem hi
  obtain ⟨v, w, hv, hw, rfl⟩ := BinOptions.getElem?_innerIntervals_iff.mp hk
  have hlength : k + 1 < b.edges.length := (List.getElem?_eq_some_iff.mp hw).1
  obtain ⟨last, n, hend, hlast, hn⟩ := h.exists_last (by omega)
  obtain ⟨m, hm⟩ := h.exists_number hw
  have hle : m ≤ n := h.le hw hlast hm hn (by omega)
  rcases hx.lt_or_eq hy rfl hend hm hn hle with hlt | ⟨rfl, rfl, rfl, hclosed, hright⟩
  · exact .inl hlt
  · have hright : b.right = false := by simpa [BinOptions.overInterval] using hright
    have hlowest : b.includeLowest = true := by
      simp [hright] at hclosed
      exact hclosed.1
    exact .inr ⟨rfl, .last hlowest hright hover (by omega) hend hn hy.upper⟩

theorem under_lt_over (h : Increasing number b.edges) (hx : (b.options.underInterval b.edges).Contains number x)
    (hy : (b.options.overInterval b.edges).Contains number y) (hedges : b.edges ≠ []) : x < y := by
  have hlength : 0 < b.edges.length := List.length_pos_iff.mpr hedges
  obtain ⟨first, m, hhead, hfirst, hm⟩ := h.exists_first hlength
  obtain ⟨last, n, hend, hlast, hn⟩ := h.exists_last hlength
  have hle : m ≤ n := h.le hfirst hlast hm hn (Nat.zero_le _)
  rcases hx.lt_or_eq hy hhead hend hm hn hle with hlt | ⟨_, _, _, hright, hclosed⟩
  · exact hlt
  · -- one of the two open bins is open at the edge
    have hright : b.right = true := hright
    simp [BinOptions.overInterval, hright] at hclosed

/-- Of two bins the one lies above the other, apart from an edge that they share. -/
theorem intervals_ordered (h : Increasing number b.edges) (hedges : b.edges ≠ []) :
    (b.options.intervals b.edges).Pairwise fun i j =>
      ∀ x y, i.Contains number x → j.Contains number y → x < y ∨ (x = y ∧ b.Shared number x) := by
  have hsingle : ∀ (c : Bool) (outer : Interval) (R : Interval → Interval → Prop),
      (if c then [outer] else []).Pairwise R := by
    intro c outer R
    cases c <;> simp
  unfold BinOptions.intervals
  rw [List.pairwise_append, List.pairwise_append]
  refine ⟨⟨hsingle .., ?_, ?_⟩, hsingle .., ?_⟩
  · exact (inner_lt_inner h).imp fun hij x y hx hy => .inl (hij x y hx hy)
  · intro i hi j hj x y hx hy
    obtain ⟨hunder, rfl⟩ := BinOptions.mem_outer_iff.mp hi
    exact under_lt_inner h hunder hj hx hy
  · intro i hi j hj x y hx hy
    obtain ⟨hover, rfl⟩ := BinOptions.mem_outer_iff.mp hj
    rcases List.mem_append.mp hi with hi | hi
    · obtain ⟨_, rfl⟩ := BinOptions.mem_outer_iff.mp hi
      exact .inl (under_lt_over h hx hy hedges)
    · exact inner_lt_over h hover hi hx hy

/-! ### Nothing between them -/

/-- A number between the first and the last edge lies in an inner bin: where the edges pass it. -/
theorem exists_inner {v w : Value} {m n : Extended} (h : Increasing number b.edges) (hv : b.edges.head? = some v)
    (hw : b.edges.getLast? = some w) (hm : number v = some m) (hn : number w = some n) (hmx : m < x) (hxn : x < n) :
    ∃ i ∈ b.options.innerIntervals b.edges, i.Contains number x := by
  have hfirst : ¬ Interval.Below number (some v) b.right x := by
    rintro ⟨m', hm', hx⟩
    rw [hm, Option.some.injEq] at hm'
    subst hm'
    rcases hx with hx | ⟨_, rfl⟩
    · exact hx.asymm hmx
    · exact hmx.false
  have hlast : Interval.Below number (some w) b.right x := ⟨n, hn, .inl hxn⟩
  -- the plain bin between two edges is in the bin between them, which may have an end more
  obtain ⟨k, v', w', hv', hw', hnot, hbelow⟩ :=
    exists_step (p := fun v => Interval.Below number (some v) b.right x) hv hw hfirst hlast
  refine ⟨_, List.mem_of_getElem? (BinOptions.getElem?_innerIntervals_iff.mpr ⟨v', w', hv', hw', rfl⟩), ?_, ?_⟩
  · obtain ⟨m', hm'⟩ := h.exists_number hv'
    refine ⟨m', hm', ?_⟩
    rcases lt_trichotomy m' x with hlt | rfl | hgt
    · exact .inl hlt
    · -- a bin that has its lower edge
      have hright : b.right = false := by
        by_contra hright
        exact hnot ⟨m', hm', .inr ⟨by simpa using hright, rfl⟩⟩
      exact .inr ⟨by simp [hright], rfl⟩
    · exact absurd ⟨m', hm', .inl hgt⟩ hnot
  · obtain ⟨n', hn', hx⟩ := hbelow
    refine ⟨n', hn', hx.imp_right ?_⟩
    rintro ⟨hright, hx⟩
    exact ⟨by simp [hright], hx⟩

/-- An inner edge lies between the first and the last one. -/
theorem covers_inner {v : Value} (h : Increasing number b.edges) (hv : v ∈ b.edges.tail.dropLast)
    (hx : number v = some x) : ∃ first last m n, b.edges.head? = some first ∧ b.edges.getLast? = some last
      ∧ number first = some m ∧ number last = some n ∧ m < x ∧ x < n := by
  obtain ⟨k, hk⟩ := List.getElem?_of_mem hv
  rw [List.getElem?_dropLast, List.getElem?_tail, List.length_tail] at hk
  split at hk
  · next hlt =>
    obtain ⟨first, m, hhead, hfirst, hm⟩ := h.exists_first (by omega)
    obtain ⟨last, n, hend, hlast, hn⟩ := h.exists_last (by omega)
    exact ⟨first, last, m, n, hhead, hend, hm, hn, h.lt hfirst hk hm hx (by omega), h.lt hk hlast hx hn (by omega)⟩
  · cases hk

/-- Every number that the bins are meant for lies in one of them. -/
theorem exists_interval (h : Increasing number b.edges) (hx : b.Covers number x) :
    ∃ i ∈ b.options.intervals b.edges, i.Contains number x := by
  have hinner : (∃ i ∈ b.options.innerIntervals b.edges, i.Contains number x) →
      ∃ i ∈ b.options.intervals b.edges, i.Contains number x := by
    rintro ⟨i, hi, hx⟩
    exact ⟨i, BinOptions.mem_intervals_iff.mpr (.inr (.inl hi)), hx⟩
  cases hx with
  | between hv hw hm hn hmx hxn => exact hinner (exists_inner h hv hw hm hn hmx hxn)
  | inner hv hx =>
    obtain ⟨_, _, _, _, hfirst, hlast, hm, hn, hmx, hxn⟩ := covers_inner h hv hx
    exact hinner (exists_inner h hfirst hlast hm hn hmx hxn)
  | @below v m hunder hv hm hbot hxm =>
    refine ⟨_, BinOptions.mem_intervals_iff.mpr (.inl ⟨hunder, rfl⟩), hbot, ?_⟩
    show Interval.Below number b.edges.head? _ x
    rw [hv]
    exact ⟨m, hm, .inl hxm⟩
  | @above v m hover hv hm hmx htop =>
    refine ⟨_, BinOptions.mem_intervals_iff.mpr (.inr (.inr ⟨hover, rfl⟩)), ?_, htop⟩
    show Interval.Above number b.edges.getLast? _ x
    rw [hv]
    exact ⟨m, hm, .inl hmx⟩

/-! ### Shared edges -/

/-- The first and the last edge are not among the numbers that the bins are meant for. -/
theorem Covers.number_ne {k : Nat} {v : Value} (h : Increasing number b.edges) (hx : b.Covers number x)
    (hk : k = 0 ∨ k + 1 = b.edges.length) (hv : b.edges[k]? = some v) : number v ≠ some x := by
  intro hnumber
  have hbetween : ∀ {first last : Value} {m n : Extended}, b.edges.head? = some first →
      b.edges.getLast? = some last → number first = some m → number last = some n → m < x → x < n → False := by
    intro first last m n hfirst hlast hm hn hmx hxn
    rw [List.head?_eq_getElem?] at hfirst
    rw [List.getLast?_eq_getElem?] at hlast
    rcases hk with rfl | hk
    · exact hmx.not_ge (h.le hv hfirst hnumber hm le_rfl)
    · exact hxn.not_ge (h.le hlast hv hn hnumber (by omega))
  cases hx with
  | between hfirst hlast hm hn hmx hxn => exact hbetween hfirst hlast hm hn hmx hxn
  | inner hinner hx =>
    obtain ⟨_, _, _, _, hfirst, hlast, hm, hn, hmx, hxn⟩ := covers_inner h hinner hx
    exact hbetween hfirst hlast hm hn hmx hxn
  | below _ hfirst hm _ hxm =>
    rw [List.head?_eq_getElem?] at hfirst
    exact hxm.not_ge (h.le hfirst hv hm hnumber (Nat.zero_le k))
  | above _ hlast hm hmx _ =>
    rw [List.getLast?_eq_getElem?] at hlast
    have hlength := (List.getElem?_eq_some_iff.mp hv).1
    exact hmx.not_ge (h.le hv hlast hnumber hm (by omega))

theorem Covers.not_shared (h : Increasing number b.edges) (hx : b.Covers number x) : ¬ b.Shared number x := by
  intro hshared
  cases hshared with
  | first _ _ _ _ hv hnumber =>
    rw [List.head?_eq_getElem?] at hv
    exact hx.number_ne h (.inl rfl) hv hnumber
  | last _ _ _ hlength hv hnumber =>
    rw [List.getLast?_eq_getElem?] at hv
    exact hx.number_ne h (.inr (by omega)) hv hnumber

/-- A shared edge is in two bins. -/
theorem exists_shared (h : Increasing number b.edges) (hx : b.Shared number x) :
    ∃ k l : Nat, ∃ i j : Interval, k < l ∧ (b.options.intervals b.edges)[k]? = some i
      ∧ (b.options.intervals b.edges)[l]? = some j ∧ i.Contains number x ∧ j.Contains number x := by
  cases hx with
  | @first v hlowest hright hunder hlength hv hnumber hbot =>
    have hfirst : b.edges[0]? = some v := List.head?_eq_getElem? ▸ hv
    have hsecond : b.edges[0 + 1]? = some b.edges[0 + 1] := List.getElem?_eq_getElem (by omega)
    obtain ⟨n, hn⟩ := h.exists_number hsecond
    have hinner := BinOptions.getElem?_innerIntervals_iff (o := b.options).mpr ⟨v, _, hfirst, hsecond, rfl⟩
    obtain ⟨k, l, hkl, hk, hl⟩ := exists_lt_getElem?_append
      (m := b.options.innerIntervals b.edges ++ if b.includeOver then [b.options.overInterval b.edges] else [])
      (BinOptions.mem_outer_iff.mpr ⟨hunder, rfl⟩) (List.mem_append_left _ (List.mem_of_getElem? hinner))
    rw [← List.append_assoc] at hk hl
    refine ⟨k, l, _, _, hkl, hk, hl, ⟨hbot, ?_⟩, ⟨x, hnumber, .inr ⟨by simp [hlowest], rfl⟩⟩, ?_⟩
    · show Interval.Below number b.edges.head? _ x
      rw [hv]
      exact ⟨x, hnumber, .inr ⟨hright, rfl⟩⟩
    · exact ⟨n, hn, .inl (h.lt hfirst hsecond hnumber hn Nat.one_pos)⟩
  | @last v hlowest hright hover hlength hv hnumber htop =>
    obtain ⟨k, hk⟩ := Nat.exists_eq_add_of_le' hlength
    have hlast : b.edges[k + 1]? = some v := by
      rw [List.getLast?_eq_getElem?, hk] at hv
      exact hv
    have hbefore : b.edges[k]? = some b.edges[k] := List.getElem?_eq_getElem (by omega)
    obtain ⟨m, hm⟩ := h.exists_number hbefore
    have hinner := BinOptions.getElem?_innerIntervals_iff (o := b.options).mpr ⟨_, v, hbefore, hlast, rfl⟩
    obtain ⟨k', l, hkl, hk', hl⟩ := exists_lt_getElem?_append
      (l := (if b.includeUnder then [b.options.underInterval b.edges] else []) ++ b.options.innerIntervals b.edges)
      (List.mem_append_right _ (List.mem_of_getElem? hinner)) (BinOptions.mem_outer_iff.mpr ⟨hover, rfl⟩)
    refine ⟨k', l, _, _, hkl, hk', hl, ⟨?_, ?_⟩, ?_, htop⟩
    · exact ⟨m, hm, .inl (h.lt hbefore hlast hm hnumber k.lt_succ_self)⟩
    · exact ⟨x, hnumber, .inr ⟨by simp [hlowest, hk], rfl⟩⟩
    · show Interval.Above number b.edges.getLast? _ x
      rw [hv]
      exact ⟨x, hnumber, .inr ⟨by simp [BinOptions.overInterval, hright], rfl⟩⟩

/-- Bins of edges that are read as numbers in order partition the numbers, apart from edges that two of them share. -/
theorem partitions (h : Increasing number b.edges) (hedges : b.edges ≠ [])
    (hlabels : b.labels = (b.options.intervals b.edges).map Interval.label) : b.Partitions number := by
  have hdenoted := denoted_eq hedges hlabels
  have hordered := intervals_ordered h hedges
  refine ⟨hdenoted ▸ hordered, fun x hx => ?_, fun x hx => ?_⟩
  · rw [hdenoted]
    refine existsUnique_getElem? (hordered.imp fun hij => ?_) (exists_interval h hx)
    rintro ⟨hi, hj⟩
    rcases hij x x hi hj with hlt | ⟨_, hshared⟩
    · exact hlt.false
    · exact hx.not_shared h hshared
  · rw [hdenoted]
    exact exists_shared h hx

end Bins

end Columnar
