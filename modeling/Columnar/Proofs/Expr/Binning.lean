import Columnar.Proofs.Bins.Partition
import Columnar.Proofs.Expr.Edges

/-!
# `Proofs.Expr.Binning` — the bins of a cut partition the numbers

The labels that a cut generates denote bins side by side, as far as its edges are in order. The doubles that edges
are compared by are always in order, and the edges themselves are as far as no decimal misses its nearest double. An
edge is in two bins only if the outermost inner bin has been closed towards an open bin.

## Contents
- `Value.compared?`: the number that an edge is compared by.
- `labels_of_makeBins_eq_ok`: what is generated.
- `cut_partitions`: the labels of a cut that succeeds.
- `cut_shares_edge`: bins that share an edge.
-/

namespace Columnar

/-- What the double denotes that a value is compared by. -/
def Value.compared? (v : Value) : Option Extended := v.asDouble.bind Binary.number?

namespace Expr

variable {c : Checker} {edges : List Value} {o : BinOptions}

theorem labels_of_makeBins_eq_ok {bins : Bins} (h : makeBins c edges o = .ok bins) (hlabels : o.labels = none) :
    edges ≠ [] ∧ bins = ⟨edges, (o.intervals edges).map Interval.label, o.right, o.includeLowest, o.includeUnder,
      o.includeOver⟩ := by
  obtain ⟨hedges, _, _, labels, _, _, hmade, rfl⟩ := makeBins_eq_ok.mp h
  unfold binLabels at hmade
  rw [hlabels] at hmade
  cases hmade
  exact ⟨hedges, rfl⟩

/-- Edges that are numbers have doubles in order exactly if what these denote is in order. -/
theorem increasing_compared_iff (hnumbers : ∀ v ∈ edges, ∃ n, v.number? = some n) :
    Increasing Value.compared? edges ↔ ascending (bounds edges) = true := by
  have hcompared : ∀ v ∈ edges, ∃ x n, v.asDouble = some x ∧ x.number? = some n := by
    intro v hv
    obtain ⟨m, hm⟩ := hnumbers v hv
    obtain ⟨x, hx, hnan⟩ := Value.exists_asDouble hm
    have hnumber : x.number? ≠ none := by
      rw [Ne, Binary.number?_eq_none_iff, hnan]
      exact Bool.false_ne_true
    obtain ⟨n, hn⟩ := Option.ne_none_iff_exists'.mp hnumber
    exact ⟨x, n, hx, hn⟩
  rw [ascending_iff, pairwise_bounds_iff]
  constructor
  · intro h
    refine h.ordered.imp_of_mem fun {v w} hv hw hvw x hx y hy => ?_
    obtain ⟨_, m, hx', hm⟩ := hcompared v hv
    obtain ⟨_, n, hy', hn⟩ := hcompared w hw
    rw [hx, Option.some.injEq] at hx'
    rw [hy, Option.some.injEq] at hy'
    subst hx' hy'
    exact (Binary.rank_lt_iff hm hn).mpr
      (hvw m n (by simp [Value.compared?, hx, hm]) (by simp [Value.compared?, hy, hn]))
  · intro h
    refine ⟨fun v hv => ?_, h.imp ?_⟩
    · obtain ⟨x, n, hx, hn⟩ := hcompared v hv
      exact ⟨n, by simp [Value.compared?, hx, hn]⟩
    · intro v w hvw m n hm hn
      obtain ⟨x, hx, hm⟩ := Option.bind_eq_some_iff.mp hm
      obtain ⟨y, hy, hn⟩ := Option.bind_eq_some_iff.mp hn
      exact (Binary.rank_lt_iff hm hn).mp (hvw x hx y hy)

/-- The doubles that edges of bins are compared by are in order. -/
theorem increasing_compared {bins : Bins} (h : makeBins c edges o = .ok bins) :
    Increasing Value.compared? edges := by
  obtain ⟨_, hnumbers, hordered⟩ := edges_of_makeBins_eq_ok h
  exact (increasing_compared_iff hnumbers).mpr (ascending_iff.mpr hordered)

/-- Edges that are in order as numbers are so. -/
theorem increasing_number {bins : Bins} (h : makeBins c edges o = .ok bins) (hbelow : edges.Pairwise Value.Below) :
    Increasing Value.number? edges := by
  obtain ⟨_, hnumbers, _⟩ := edges_of_makeBins_eq_ok h
  refine ⟨hnumbers, hbelow.imp ?_⟩
  rintro v w ⟨m, n, hm, hn, hlt⟩ m' n' hm' hn'
  rw [hm, Option.some.injEq] at hm'
  rw [hn, Option.some.injEq] at hn'
  rw [← hm', ← hn']
  exact hlt

section

variable [Hasher] {e : Expr} {s : Supply}

/-- A cut that succeeds without labels given to it generates labels that are the intervals they denote written out.
With the edges read as the doubles that they are compared by, these intervals partition the numbers, apart from an
edge that an inner bin shares with an open one. If the edges are in order as numbers, the intervals between the
numbers themselves do. -/
theorem cut_partitions {r : Expr × Supply} (h : e.cut edges o s = .ok r) (hlabels : o.labels = none) :
    ∃ b : Bins, r.1.kind = .cut b
      ∧ b = ⟨edges, b.labels, o.right, o.includeLowest, o.includeUnder, o.includeOver⟩
      ∧ b.labels = b.denoted.map Interval.label
      ∧ b.Partitions Value.compared?
      ∧ (edges.Pairwise Value.Below → b.Partitions Value.number?) := by
  obtain ⟨_, b, hbins, rfl⟩ := cut_eq_ok.mp h
  obtain ⟨hedges, hb⟩ := labels_of_makeBins_eq_ok hbins hlabels
  have hcompared := increasing_compared hbins
  have hnumber := increasing_number hbins
  have hgenerated : b.labels = (b.options.intervals b.edges).map Interval.label := by
    rw [hb]
    rfl
  have hkept : b.edges = edges := by rw [hb]
  rw [← hkept] at hedges hcompared hnumber
  refine ⟨b, rfl, ?_, ?_, Bins.partitions hcompared hedges hgenerated, fun hbelow => ?_⟩
  · rw [hb]
  · rw [Bins.denoted_eq hedges hgenerated]
    exact hgenerated
  · exact Bins.partitions (hnumber (hkept ▸ hbelow)) hedges hgenerated

end

end Expr

/-! ### Cuts of quantities -/

namespace Sales

/-- An integer of 64 bits as an edge. -/
def edge (n : Int) (h : IntWidth.w64.Contains n) : Value := .int .w64 ⟨n, h⟩

/-- Three edges in order. -/
def tiers : List Value := [edge 0 (by decide), edge 5 (by decide), edge 10 (by decide)]

/-- Open bins on both sides. -/
def openBins : BinOptions := { includeUnder := true, includeOver := true }

/-- Two edges, of which the first is closed towards an open bin. -/
def closedBins : Bins where
  edges := [edge 0 (by decide), edge 5 (by decide)]
  labels := ["(-inf, 0]", "[0, 5]"]
  right := true
  includeLowest := true
  includeUnder := true
  includeOver := false

end Sales

namespace Expr

open Sales in
/-- Two inner bins between two open ones. -/
theorem cut_partitions_tiers : ∃ r b, @cut .standard quantity tiers openBins {} = .ok r ∧ r.1.kind = .cut b
    ∧ b.labels = ["(-inf, 0]", "(0, 5]", "(5, 10]", "(10, inf)"] ∧ b.Partitions Value.number? := by
  let _ : Hasher := .standard
  have hbins : makeBins ⟨"cut"⟩ tiers openBins
      = .ok ⟨tiers, ["(-inf, 0]", "(0, 5]", "(5, 10]", "(10, inf)"], true, false, true, true⟩ := by
    decide +kernel
  have hcut : cut quantity tiers openBins {} = .ok _ := cut_eq_ok.mpr ⟨rfl, _, hbins, rfl⟩
  have hbelow : tiers.Pairwise Value.Below := by
    simp [tiers, edge, Value.below_int_iff]
  obtain ⟨b, hkind, _, _, _, hpartitions⟩ := cut_partitions hcut rfl
  cases hkind
  exact ⟨_, _, hcut, rfl, rfl, hpartitions hbelow⟩

open Sales in
/-- Not all bins are disjoint, not even if all edges are integers: closed at its lower end, the lowest inner bin shares
the first edge with an open bin below. -/
theorem cut_shares_edge : ¬ ∀ (_ : Hasher) (e : Expr) (edges : List Value) (o : BinOptions) (s : Supply)
    (r : Expr × Supply) (b : Bins), (∀ v ∈ edges, v.type = .int .w64) → o.labels = none → e.cut edges o s = .ok r →
      r.1.kind = .cut b →
      b.denoted.Pairwise fun i j => ∀ x, ¬ (i.Contains Value.number? x ∧ j.Contains Value.number? x) := by
  intro hall
  let _ : Hasher := .standard
  have hbins : makeBins ⟨"cut"⟩ closedBins.edges closedBins.options = .ok closedBins := by decide +kernel
  have hdenoted : closedBins.denoted = [⟨none, some (edge 0 (by decide)), false, true⟩,
      ⟨some (edge 0 (by decide)), some (edge 5 (by decide)), true, true⟩] := by
    decide
  have hdisjoint := hall _ quantity _ _ {} _ _ (by decide) rfl (cut_eq_ok.mpr ⟨rfl, _, hbins, rfl⟩) rfl
  rw [hdenoted, List.pairwise_pair] at hdisjoint
  have hless : Extended.finite (0 : Int) < Extended.finite (5 : Int) :=
    WithBot.coe_lt_coe.mpr (WithTop.coe_lt_coe.mpr (by norm_num))
  apply hdisjoint (.finite (0 : Int))
  constructor
  · exact ⟨WithBot.bot_lt_coe _, _, rfl, .inr ⟨rfl, rfl⟩⟩
  · exact ⟨⟨_, rfl, .inr ⟨rfl, rfl⟩⟩, _, rfl, .inl hless⟩

end Expr

end Columnar
