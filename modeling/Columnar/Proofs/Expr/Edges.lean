import Columnar.Proofs.Expr.Congruence
import Columnar.Proofs.Value.Number
import Mathlib.Data.List.Pairwise

/-!
# `Proofs.Expr.Edges` — which edges are in order

Edges are compared as doubles. Where every double is the one nearest to its number, doubles in order come from
numbers in order, and numbers in order have doubles in order, only that two numbers may share one double. Where a
decimal of many digits misses its nearest double, neither is so.

## Contents
- `Sales`: edges that quantities are cut at.
- `ascending_iff`: neighbours in order are all in order.
- `edgeBound_eq_ok`, `makeBins_of_fits`, `edges_of_makeBins_eq_ok`: bins from edges that are numbers.
- `below_of_rank_lt`, `rank_le_of_below`, `rank_lt_of_below`: the order of numbers and that of their doubles.
- `cut_edges_below`, `cut_edges_descending`: the edges of a cut that succeeds.
- `cut_of_edges_below`, `cut_refuses_edges_below`: when a cut at edges in order succeeds.
-/

/-! ## Edges to cut quantities at -/

namespace Columnar.Sales

/-- A field to cut. -/
def quantity : Expr := .node ⟨0⟩ 0 (.column "quantity" ⟨1⟩) (.float .double) .sequence none []

/-- Edges of three types. -/
def mixed : List Value :=
  [.int .w8 ⟨-1, by decide⟩, .decimal ⟨false, 500, 3, by decide, by decide⟩, .int .w64 ⟨2 ^ 53, by decide⟩]

/-- A number with three places. -/
def threePlaces : Decimal := ⟨false, 2921, 3, by decide, by decide⟩

/-- A number with sixteen places. It is less, and is converted to a greater double. -/
def sixteenPlaces : Decimal := ⟨false, 29209999999999999, 16, by decide, by decide⟩

/-- An infinity, and integers that are doubles. -/
def spaced : List Value :=
  [.float .single ⟨true, FloatFormat.single.infinity, FloatFormat.single.infinity_lt⟩, .int .w64 ⟨2 ^ 53, by decide⟩,
    .int .w64 ⟨2 ^ 53 + 2, by decide⟩]

/-- Neighbouring integers, of which the greater is the first that is no double. -/
def adjacent : List Value := [.int .w64 ⟨2 ^ 53, by decide⟩, .int .w64 ⟨2 ^ 53 + 1, by decide⟩]

end Columnar.Sales

namespace Columnar.Expr

open FloatFormat

variable {c : Checker} {edges : List Value} {o : BinOptions} {v w : Value} {m n : Extended} {x y : Binary .double}

/-! ## Doubles in order -/

/-- If each number is less than the next, it is less than all that follow. -/
theorem ascending_iff {xs : List (Binary .double)} :
    ascending xs = true ↔ xs.Pairwise fun x y => x.rank < y.rank := by
  rw [← List.isChain_iff_pairwise]
  induction xs with
  | nil => exact iff_of_true rfl .nil
  | cons x xs ih =>
    cases xs with
    | nil => exact iff_of_true rfl (.singleton x)
    | cons y ys =>
      have hstep : ascending (x :: y :: ys) = (decide (x.rank < y.rank) && ascending (y :: ys)) := rfl
      rw [hstep, Bool.and_eq_true, decide_eq_true_eq, ih, List.isChain_cons_cons]

/-- The doubles of edges are in order exactly if any two edges have doubles in order. -/
theorem pairwise_bounds_iff {R : Binary .double → Binary .double → Prop} :
    (bounds edges).Pairwise R
      ↔ edges.Pairwise fun v w => ∀ x, v.asDouble = some x → ∀ y, w.asDouble = some y → R x y :=
  List.pairwise_filterMap

/-! ## Edges that are numbers -/

theorem edgeBound_eq_ok : edgeBound c v = .ok x ↔ v.asDouble = some x ∧ x.isNaN = false := by
  constructor
  · intro h
    have hx := asDouble_of_edgeBound_eq_ok h
    unfold edgeBound at h
    obtain ⟨_, _, h⟩ := except_bind_eq_ok.mp h
    rw [hx] at h
    cases hnan : x.isNaN with
    | true =>
      simp only [hnan] at h
      cases h
    | false => exact ⟨hx, rfl⟩
  · rintro ⟨hx, hnan⟩
    have hnumeric : v.type.isNumeric = true := by
      cases v <;> first | rfl | cases hx
    unfold edgeBound
    rw [except_bind_eq_ok]
    refine ⟨(), Checker.expectNumeric_eq_ok.mpr hnumeric, ?_⟩
    simp only [hx, hnan]
    rfl

/-- An edge has a double to compare exactly if it denotes something. -/
theorem edgeBound_isOk_iff : (∃ x, edgeBound c v = .ok x) ↔ ∃ n, v.number? = some n := by
  simp only [edgeBound_eq_ok]
  constructor
  · rintro ⟨x, hx, hnan⟩
    cases v with
    | float f y =>
      have hnumber : x.number? = y.number? := by
        cases f with
        | single =>
          cases hx
          exact Binary.number?_convert y
        | double =>
          cases hx
          rfl
      show ∃ n, y.number? = some n
      rw [← hnumber]
      unfold Binary.number?
      rw [hnan]
      by_cases hfinite : x.isFinite = true
      · exact ⟨_, if_pos hfinite⟩
      · exact ⟨_, if_neg hfinite⟩
    | int _ n => exact ⟨_, rfl⟩
    | decimal d => exact ⟨_, rfl⟩
    | _ => cases hx
  · rintro ⟨n, hn⟩
    exact Value.exists_asDouble hn

theorem mapM_edgeBound_eq_ok (h : ∀ v ∈ edges, ∃ n, v.number? = some n) :
    edges.mapM (edgeBound c) = .ok (bounds edges) := by
  induction edges with
  | nil => rfl
  | cons v edges ih =>
    obtain ⟨x, hx⟩ := (edgeBound_isOk_iff (c := c)).mpr (h v List.mem_cons_self)
    have hbounds : bounds (v :: edges) = x :: bounds edges :=
      List.filterMap_cons_some (asDouble_of_edgeBound_eq_ok hx)
    rw [List.mapM_cons, hx, ih fun w hw => h w (List.mem_cons_of_mem _ hw), hbounds]
    rfl

/-- Options that fit so many edges: there is a bin, and one label for each bin if labels are given. -/
structure Fits (o : BinOptions) (edges : List Value) : Prop where
  nonempty : edges ≠ []
  enough : 2 ≤ edges.length ∨ o.includeUnder = true ∧ o.includeOver = true
  labels : ∀ labels, o.labels = some labels → labels.length = o.binCount edges.length

/-- The refusal of edges that are not in order. -/
def notAscending : BuildError := .invalidArgument "cut" "bin edges must be strictly increasing"

/-- Edges that are numbers, as many as the options ask for, are refused only if their doubles are not in order. -/
theorem makeBins_of_fits (hfits : Fits o edges) (hnumbers : ∀ v ∈ edges, ∃ n, v.number? = some n) :
    ∃ labels, makeBins ⟨"cut"⟩ edges o = if ascending (bounds edges) then
      .ok ⟨edges, labels, o.right, o.includeLowest, o.includeUnder, o.includeOver⟩ else .error notAscending := by
  have hnonempty : (!edges.isEmpty) = true := by simpa using hfits.nonempty
  have henough : (decide (2 ≤ edges.length) || (o.includeUnder && o.includeOver)) = true := by
    simpa using hfits.enough
  have hlabels : ∃ labels, binLabels ⟨"cut"⟩ edges o = .ok labels := by
    unfold binLabels
    cases ho : o.labels with
    | none => exact ⟨_, rfl⟩
    | some labels =>
      refine ⟨labels, except_bind_eq_ok.mpr ⟨(), Checker.expectCount_eq_ok.mpr ?_, rfl⟩⟩
      exact beq_iff_eq.mpr (hfits.labels labels ho)
  obtain ⟨labels, hlabels⟩ := hlabels
  refine ⟨labels, ?_⟩
  unfold makeBins
  rw [hnonempty, henough, mapM_edgeBound_eq_ok hnumbers, hlabels]
  show (if (!ascending (bounds edges)) = true then _ else _) = _
  cases ascending (bounds edges) <;> rfl

/-- Bins hold the edges that they are made of. These are numbers, and their doubles are in order. -/
theorem edges_of_makeBins_eq_ok {bins : Bins} (h : makeBins c edges o = .ok bins) :
    bins.edges = edges ∧ (∀ v ∈ edges, ∃ n, v.number? = some n)
      ∧ (bounds edges).Pairwise fun x y => x.rank < y.rank := by
  obtain ⟨_, _, xs, _, hxs, hordered, _, rfl⟩ := makeBins_eq_ok.mp h
  rw [bounds_of_mapM_eq_ok hxs] at hordered
  refine ⟨rfl, fun v hv => ?_, ascending_iff.mp hordered⟩
  obtain ⟨x, _, hx⟩ := exists_of_forall₂ (mapM_eq_ok.mp hxs).flip hv
  exact edgeBound_isOk_iff.mp ⟨x, hx⟩

/-! ## Numbers in order -/

/-- Doubles that are in order are those of numbers in order, if they are the nearest. -/
theorem below_of_rank_lt (hv : v.number? = some m) (hw : w.number? = some n) (hnearest : v.ConvertsToNearest)
    (hnearest' : w.ConvertsToNearest) (hx : v.asDouble = some x) (hy : w.asDouble = some y) (h : x.rank < y.rank) :
    v.Below w := by
  rw [Value.rank_asDouble hv hnearest hx, Value.rank_asDouble hw hnearest' hy] at h
  exact ⟨m, n, hv, hw, lt_of_not_ge fun hle => h.not_ge (double.rankOfExtended_mono hle)⟩

/-- Numbers in order never have doubles in the opposite order, if these are the nearest. -/
theorem rank_le_of_below (h : v.Below w) (hnearest : v.ConvertsToNearest) (hnearest' : w.ConvertsToNearest)
    (hx : v.asDouble = some x) (hy : w.asDouble = some y) : x.rank ≤ y.rank := by
  obtain ⟨m, n, hv, hw, hlt⟩ := h
  rw [Value.rank_asDouble hv hnearest hx, Value.rank_asDouble hw hnearest' hy]
  exact double.rankOfExtended_mono hlt.le

/-- Numbers in order have doubles in order, if they are doubles themselves. -/
theorem rank_lt_of_below (h : v.Below w) (hdouble : v.IsDouble) (hdouble' : w.IsDouble) (hx : v.asDouble = some x)
    (hy : w.asDouble = some y) : x.rank < y.rank := by
  obtain ⟨m, n, hv, hw, hlt⟩ := h
  obtain ⟨x', hx', hv'⟩ := hdouble
  obtain ⟨y', hy', hw'⟩ := hdouble'
  rw [hx] at hx'
  rw [hy] at hy'
  cases hx'
  cases hy'
  exact (Binary.rank_lt_iff (hv'.trans hv) (hw'.trans hw)).mpr hlt

/-! ## Cuts -/

section

variable [Hasher] {e : Expr} {s : Supply}

/-- The edges of a cut that succeeds are numbers, and their doubles are in order. The numbers are in order as far as
their doubles are the nearest. So are all integers and floats, and decimals that are whole or have few digits. -/
theorem cut_edges_below {r : Expr × Supply} (h : e.cut edges o s = .ok r) :
    ∃ bins, r.1.kind = .cut bins ∧ bins.edges = edges
      ∧ (∀ v ∈ edges, ∃ n, v.number? = some n)
      ∧ ((bounds edges).Pairwise fun x y => x.rank < y.rank)
      ∧ (edges.Pairwise fun v w => v.ConvertsToNearest → w.ConvertsToNearest → v.Below w)
      ∧ edges.Pairwise fun v w => v.FewDigits → w.FewDigits → v.Below w := by
  obtain ⟨_, bins, hbins, rfl⟩ := cut_eq_ok.mp h
  obtain ⟨hedges, hnumbers, hordered⟩ := edges_of_makeBins_eq_ok hbins
  have hbelow : edges.Pairwise fun v w => v.ConvertsToNearest → w.ConvertsToNearest → v.Below w := by
    refine (pairwise_bounds_iff.mp hordered).imp_of_mem fun {v w} hv hw hrank hnearest hnearest' => ?_
    obtain ⟨m, hm⟩ := hnumbers v hv
    obtain ⟨n, hn⟩ := hnumbers w hw
    obtain ⟨x, hx, _⟩ := Value.exists_asDouble hm
    obtain ⟨y, hy, _⟩ := Value.exists_asDouble hn
    exact below_of_rank_lt hm hn hnearest hnearest' hx hy (hrank x hx y hy)
  exact ⟨bins, rfl, hedges, hnumbers, hordered, hbelow,
    hbelow.imp fun hvw hfew hfew' => hvw hfew.convertsToNearest hfew'.convertsToNearest⟩

end

open Sales in
/-- Edges of different types are in order as numbers. -/
theorem cut_edges_below_mixed : ∃ r, @cut .standard quantity mixed {} {} = .ok r ∧ mixed.Pairwise Value.Below := by
  let _ : Hasher := .standard
  have hbins : makeBins ⟨"cut"⟩ mixed {}
      = .ok ⟨mixed, ["(-1, 0.500]", "(0.500, 9007199254740992]"], true, false, false, false⟩ := by
    decide +kernel
  have hcut : cut quantity mixed {} {} = .ok _ := cut_eq_ok.mpr ⟨rfl, _, hbins, rfl⟩
  obtain ⟨_, _, _, _, _, _, hbelow⟩ := cut_edges_below hcut
  have hfew : ∀ v ∈ mixed, v.FewDigits := by
    intro v hv d hd
    subst hd
    simp only [mixed, List.mem_cons, reduceCtorEq, Value.decimal.injEq, List.not_mem_nil, or_false, false_or] at hv
    subst hv
    exact .inr (by decide)
  exact ⟨_, hcut, hbelow.imp_of_mem fun hv hw hvw => hvw (hfew _ hv) (hfew _ hw)⟩

open Sales in
/-- Not all edges of cuts that succeed are in order: a decimal of many digits may miss its nearest double, and be
taken for greater than an edge in front of it. -/
theorem cut_edges_descending : ¬ ∀ (_ : Hasher) (e : Expr) (edges : List Value) (o : BinOptions) (s : Supply)
    (r : Expr × Supply) (bins : Bins), (∀ d, .decimal d ∈ edges → d.scale ≤ 22) → e.cut edges o s = .ok r →
      r.1.kind = .cut bins → bins.edges.Pairwise Value.Below := by
  intro hall
  let _ : Hasher := .standard
  have hbins : makeBins ⟨"cut"⟩ [.decimal threePlaces, .decimal sixteenPlaces] {}
      = .ok ⟨[.decimal threePlaces, .decimal sixteenPlaces], ["(2.921, 2.9209999999999999]"], true, false, false,
        false⟩ := by
    decide +kernel
  have hscale : ∀ d, Value.decimal d ∈ [.decimal threePlaces, .decimal sixteenPlaces] → d.scale ≤ 22 := by
    simp [threePlaces, sixteenPlaces]
  have hpairwise := hall _ quantity _ {} {} _ _ hscale (cut_eq_ok.mpr ⟨rfl, _, hbins, rfl⟩) rfl
  have hbelow := Value.below_decimal_iff.mp (List.rel_of_pairwise_cons hpairwise List.mem_cons_self)
  revert hbelow
  norm_num [Decimal.toRat, Decimal.mantissa, threePlaces, sixteenPlaces]

section

variable [Hasher] {e : Expr} {s : Supply}

/-- The cut succeeds and holds the edges. -/
def CutsAt (e : Expr) (edges : List Value) (o : BinOptions) (s : Supply) : Prop :=
  ∃ bins r, e.cut edges o s = .ok r ∧ r.1.kind = .cut bins ∧ bins.edges = edges

/-- A cut of numbers at edges that are in order, with options that fit, succeeds exactly if the doubles of the edges
are in order; otherwise the edges are said not to be in order. If the doubles are the nearest, all that is needed is
that no two edges share a double. If the edges are doubles themselves, nothing is. -/
theorem cut_of_edges_below (hreceiver : e.type.isNumeric = true) (hfits : Fits o edges)
    (hnumbers : ∀ v ∈ edges, ∃ n, v.number? = some n) (hbelow : edges.Pairwise Value.Below) :
    (CutsAt e edges o s ↔ (bounds edges).Pairwise fun x y => x.rank < y.rank)
      ∧ (¬ CutsAt e edges o s → e.cut edges o s = .error notAscending)
      ∧ ((∀ v ∈ edges, v.ConvertsToNearest) →
          (CutsAt e edges o s ↔ (bounds edges).Pairwise fun x y => x.rank ≠ y.rank))
      ∧ ((∀ v ∈ edges, v.IsDouble) → CutsAt e edges o s) := by
  obtain ⟨labels, hbins⟩ := makeBins_of_fits hfits hnumbers
  have hcuts : CutsAt e edges o s ↔ (bounds edges).Pairwise fun x y => x.rank < y.rank := by
    constructor
    · rintro ⟨_, r, hcut, _⟩
      obtain ⟨_, _, hmade, _⟩ := cut_eq_ok.mp hcut
      exact (edges_of_makeBins_eq_ok hmade).2.2
    · intro hordered
      rw [if_pos (ascending_iff.mpr hordered)] at hbins
      exact ⟨_, _, cut_eq_ok.mpr ⟨hreceiver, _, hbins, rfl⟩, rfl, rfl⟩
  refine ⟨hcuts, fun hrefused => ?_, fun hnearest => hcuts.trans ⟨fun h => h.imp fun hxy => hxy.ne, fun hne => ?_⟩,
    fun hdouble => hcuts.mpr ?_⟩
  · rw [if_neg fun h => hrefused (hcuts.mpr (ascending_iff.mp h))] at hbins
    have hnumeric : Checker.expectNumeric ⟨"cut"⟩ e.type = .ok () := Checker.expectNumeric_eq_ok.mpr hreceiver
    unfold cut
    simp only [hnumeric, hbins]
    rfl
  · rw [pairwise_bounds_iff] at hne ⊢
    refine (hne.and hbelow).imp_of_mem fun {v w} hv hw ⟨hne, hvw⟩ x hx y hy => ?_
    exact lt_of_le_of_ne (rank_le_of_below hvw (hnearest v hv) (hnearest w hw) hx hy) (hne x hx y hy)
  · rw [pairwise_bounds_iff]
    exact hbelow.imp_of_mem fun {v w} hv hw hvw x hx y hy =>
      rank_lt_of_below hvw (hdouble v hv) (hdouble w hw) hx hy

end

open Sales in
/-- Integers of many bits are accepted if the last bits are zeros, and so are infinities. -/
theorem cut_of_edges_below_spaced : quantity.type.isNumeric = true ∧ Fits {} spaced ∧ spaced.Pairwise Value.Below
    ∧ @CutsAt .standard quantity spaced {} {} := by
  have hfits : Fits {} spaced := ⟨nofun, .inl (by decide), nofun⟩
  have hinfinity : Value.number? (.float .single ⟨true, single.infinity, single.infinity_lt⟩) = some ⊥ := by
    decide +kernel
  have hnumbers : ∀ v ∈ spaced, ∃ n, v.number? = some n :=
    List.forall_mem_cons.mpr ⟨⟨⊥, hinfinity⟩,
      List.forall_mem_cons.mpr ⟨⟨_, rfl⟩, List.forall_mem_singleton.mpr ⟨_, rfl⟩⟩⟩
  have hbelow : spaced.Pairwise Value.Below := by
    have hlowest : ∀ n : BoundedInt .w64,
        Value.Below (.float .single ⟨true, single.infinity, single.infinity_lt⟩) (.int .w64 n) :=
      fun n => ⟨⊥, _, hinfinity, rfl, WithBot.bot_lt_coe _⟩
    simp [spaced, Value.below_int_iff, hlowest]
  have hdouble : ∀ v ∈ spaced, v.IsDouble :=
    List.forall_mem_cons.mpr ⟨Value.isDouble_float _,
      List.forall_mem_cons.mpr ⟨Value.isDouble_int (k := 1) (e := 53) (by decide) (by decide) (by decide),
        List.forall_mem_singleton.mpr
          (Value.isDouble_int (k := 2 ^ 52 + 1) (e := 1) (by decide) (by decide) (by decide))⟩⟩
  obtain ⟨_, _, _, hcuts⟩ := @cut_of_edges_below spaced {} .standard quantity {} rfl hfits hnumbers hbelow
  exact ⟨rfl, hfits, hbelow, hcuts hdouble⟩

open Sales in
/-- Not all edges in order are accepted, not even if all are integers: two integers may share a double. -/
theorem cut_refuses_edges_below : ¬ ∀ (_ : Hasher) (e : Expr) (edges : List Value) (o : BinOptions) (s : Supply),
    e.type.isNumeric = true → Fits o edges → (∀ v ∈ edges, v.type = .int .w64) →
      (∀ v ∈ edges, ∃ n, v.number? = some n) → edges.Pairwise Value.Below → CutsAt e edges o s := by
  intro hall
  have hfits : Fits {} adjacent := ⟨nofun, .inl (by decide), nofun⟩
  have hnumbers : ∀ v ∈ adjacent, ∃ n, v.number? = some n :=
    List.forall_mem_cons.mpr ⟨⟨_, rfl⟩, List.forall_mem_singleton.mpr ⟨_, rfl⟩⟩
  have hbelow : adjacent.Pairwise Value.Below := by
    refine List.pairwise_pair.mpr (Value.below_int_iff.mpr ?_)
    decide
  have hshared : ¬ ascending (bounds adjacent) = true := by decide +kernel
  obtain ⟨_, _, hcut, _⟩ := hall .standard quantity adjacent {} {} rfl hfits (by decide) hnumbers hbelow
  obtain ⟨_, _, hbins, _⟩ := (@cut_eq_ok .standard ..).mp hcut
  exact hshared (ascending_of_makeBins_eq_ok hbins)

end Columnar.Expr
