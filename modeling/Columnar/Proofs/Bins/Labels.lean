import Columnar.Proofs.Expr.Writing

/-!
# `Proofs.Bins.Labels` — what generated labels show of the edges

A generated label shows the two ends of a bin as they are written. Where the edges of two lists are equal place by
place, the bins are too, and their labels are the same only if the bins are: equal ends that are written in one
way are one. And the bins show all edges. So equal edges have the same generated labels only if they are the same
edges.

## Contents
- `Value.Alike.text_eq_iff`: equal values are written alike only if they are one.
- `Interval.Alike`, `Interval.Alike.label_eq_iff`: the same of bins.
- `BinOptions.intervals_alike`, `BinOptions.edgesOf_intervals`: the bins of equal edges, and the edges of bins.
- `BinOptions.labels_eq_iff`: the labels of equal edges.
-/

namespace Columnar

/-! ## Texts -/

theorem Decimal.comma_not_mem_chars (d : Decimal) : ',' ∉ d.chars := by
  have hpositional := Text.not_mem_positional (c := ',') rfl (by decide) d.coefficient d.scale
  unfold chars Text.signed
  cases d.negative with
  | false => exact hpositional
  | true => exact List.not_mem_cons_of_ne_of_not_mem (by decide) hpositional

/-- Equal values are written alike only if they are one value. -/
theorem Value.Alike.text_eq_iff {v w : Value} (h : v.Alike w) : v.text = w.text ↔ v = w := by
  rcases h.eq_or_decimal with rfl | ⟨a, b, rfl, rfl, hnumber⟩
  · exact iff_of_true rfl rfl
  · rw [decimal.injEq]
    exact Decimal.text_eq_iff hnumber

/-- A text ends where the first comma stands. -/
theorem append_comma_inj {as bs cs ds : List Char} (ha : ',' ∉ as) (hb : ',' ∉ bs)
    (h : as ++ ',' :: cs = bs ++ ',' :: ds) : as = bs ∧ cs = ds := by
  have htake : ∀ {es fs : List Char}, ',' ∉ es → (es ++ ',' :: fs).takeWhile (· != ',') = es := by
    intro es fs hes
    rw [List.takeWhile_append_of_pos, List.takeWhile_cons_of_neg (by simp), List.append_nil]
    intro c hc
    rw [bne_iff_ne]
    rintro rfl
    exact hes hc
  have hab : as = bs := by rw [← htake ha, h, htake hb]
  subst hab
  exact ⟨rfl, (List.cons.inj (List.append_cancel_left h)).2⟩

/-! ## Bins -/

namespace Interval

/-- The end of a bin written out. -/
def endText (infinite : String) : Option Value → String
  | some v => v.text
  | none => infinite

theorem label_eq (i : Interval) : i.label = (if i.closedLower then "[" else "(") ++ endText "-inf" i.lower ++ ", "
    ++ endText "inf" i.upper ++ (if i.closedUpper then "]" else ")") := rfl

/-- Bins with equal ends, closed at the same ends. -/
structure Alike (i j : Interval) : Prop where
  lower : Option.Rel Value.Alike i.lower j.lower
  upper : Option.Rel Value.Alike i.upper j.upper
  closedLower : i.closedLower = j.closedLower
  closedUpper : i.closedUpper = j.closedUpper

variable {i j : Interval} {infinite : String} {a b : Option Value}

theorem endText_eq_iff (h : Option.Rel Value.Alike a b) : endText infinite a = endText infinite b ↔ a = b := by
  cases h with
  | none => exact iff_of_true rfl rfl
  | some hvw =>
    rw [Option.some.injEq]
    exact hvw.text_eq_iff

/-- Equal ends are one end, or have no comma in them. -/
theorem eq_or_comma_not_mem (h : Option.Rel Value.Alike a b) :
    a = b ∨ (',' ∉ (endText infinite a).toList ∧ ',' ∉ (endText infinite b).toList) := by
  cases h with
  | none => exact Or.inl rfl
  | some hvw =>
    rcases hvw.eq_or_decimal with rfl | ⟨c, d, rfl, rfl, _⟩
    · exact Or.inl rfl
    · refine Or.inr ⟨?_, ?_⟩ <;>
        exact (String.toList_ofList ▸ Decimal.comma_not_mem_chars _)

/-- Bins with equal ends have one label only if they are one bin. -/
theorem Alike.label_eq_iff (h : i.Alike j) : i.label = j.label ↔ i = j := by
  constructor
  · intro hlabel
    rw [label_eq, label_eq, h.closedLower, h.closedUpper, String.append_left_inj, String.append_assoc,
      String.append_assoc, String.append_assoc, String.append_assoc, String.append_right_inj] at hlabel
    have hends : i.lower = j.lower ∧ endText "inf" i.upper = endText "inf" j.upper := by
      rcases eq_or_comma_not_mem h.lower with hlower | ⟨hi, hj⟩
      · rw [hlower, String.append_right_inj, String.append_right_inj] at hlabel
        exact ⟨hlower, hlabel⟩
      · have hlists := congrArg String.toList hlabel
        simp only [String.toList_append] at hlists
        obtain ⟨hlower, hrest⟩ := append_comma_inj hi hj hlists
        have hupper := (List.cons.inj hrest).2
        exact ⟨(endText_eq_iff h.lower).mp (String.toList_injective hlower), String.toList_injective hupper⟩
    have hupper := (endText_eq_iff h.upper).mp hends.2
    cases i
    cases j
    rw [Interval.mk.injEq]
    exact ⟨hends.1, hupper, h.closedLower, h.closedUpper⟩
  · intro hij
    rw [hij]

end Interval

/-! ## Bins of equal edges -/

section

variable {α β γ δ : Type} {R : α → β → Prop} {S : γ → δ → Prop} {as : List α} {bs : List β} {cs : List γ}
  {ds : List δ}

theorem forall₂_zip (h : List.Forall₂ R as bs) (h' : List.Forall₂ S cs ds) :
    List.Forall₂ (fun p q => R p.1 q.1 ∧ S p.2 q.2) (as.zip cs) (bs.zip ds) := by
  induction h generalizing cs ds with
  | nil => exact .nil
  | cons hab _ ih =>
    cases h' with
    | nil => exact .nil
    | cons hcd h' => exact .cons ⟨hab, hcd⟩ (ih h')

theorem forall₂_mapIdx {f : Nat → α → γ} {g : Nat → β → δ} (h : List.Forall₂ R as bs)
    (hfg : ∀ i a b, R a b → S (f i a) (g i b)) : List.Forall₂ S (as.mapIdx f) (bs.mapIdx g) := by
  induction h generalizing f g with
  | nil => exact .nil
  | cons hab _ ih =>
    rw [List.mapIdx_cons, List.mapIdx_cons]
    exact .cons (hfg 0 _ _ hab) (ih fun i a b => hfg (i + 1) a b)

theorem forall₂_tail (h : List.Forall₂ R as bs) : List.Forall₂ R as.tail bs.tail := by
  cases h with
  | nil => exact .nil
  | cons _ h => exact h

theorem rel_head? (h : List.Forall₂ R as bs) : Option.Rel R as.head? bs.head? := by
  cases h with
  | nil => exact .none
  | cons hab _ => exact .some hab

theorem rel_getLast? (h : List.Forall₂ R as bs) : Option.Rel R as.getLast? bs.getLast? := by
  rw [← List.head?_reverse, ← List.head?_reverse]
  exact rel_head? (List.rel_reverse h)

end

namespace BinOptions

variable {o : BinOptions} {edges edges' : List Value}

/-- Equal edges define bins with equal ends. -/
theorem intervals_alike (h : List.Forall₂ Value.Alike edges edges') :
    List.Forall₂ Interval.Alike (o.intervals edges) (o.intervals edges') := by
  have hpairs := forall₂_zip h (forall₂_tail h)
  have hlength := hpairs.length_eq
  unfold intervals
  refine List.rel_append (List.rel_append ?_ ?_) ?_
  · cases o.includeUnder with
    | false => exact .nil
    | true => exact .cons ⟨.none, rel_head? h, rfl, rfl⟩ .nil
  · unfold innerIntervals
    simp only [hlength]
    exact forall₂_mapIdx hpairs fun i p q hpq => ⟨.some hpq.1, .some hpq.2, rfl, rfl⟩
  · cases o.includeOver with
    | false => exact .nil
    | true => exact .cons ⟨rel_getLast? h, .none, rfl, rfl⟩ .nil

/-- The edges that the bins show: their upper ends, and the lower end of the first bin if there is none below
it. -/
def edgesOf (o : BinOptions) (intervals : List Interval) : List Value :=
  (if o.includeUnder then none else intervals.head?.bind Interval.lower).toList
    ++ intervals.filterMap Interval.upper

theorem filterMap_upper_innerIntervals (o : BinOptions) (edges : List Value) :
    (o.innerIntervals edges).filterMap Interval.upper = edges.tail := by
  have hpairs : (edges.zip edges.tail).map Prod.snd = edges.tail :=
    List.map_snd_zip (by rw [List.length_tail]; exact Nat.sub_le _ _)
  unfold innerIntervals
  simp only [List.mapIdx_eq_zipIdx_map, List.filterMap_map, Function.comp_def, List.filterMap_eq_map']
  calc (edges.zip edges.tail).zipIdx.map (fun x => x.1.2)
      = ((edges.zip edges.tail).zipIdx.map Prod.fst).map Prod.snd := (List.map_map ..).symm
    _ = edges.tail := by rw [List.zipIdx_map_fst, hpairs]

/-- The first bin between two edges starts at the first edge. -/
theorem exists_innerIntervals_eq (o : BinOptions) (a b : Value) (edges : List Value) :
    ∃ i is, o.innerIntervals (a :: b :: edges) = i :: is ∧ i.lower = some a := by
  unfold innerIntervals
  simp only [List.tail_cons, List.zip_cons_cons, List.mapIdx_cons]
  exact ⟨_, _, rfl, rfl⟩

/-- The bins show all edges, as long as there are bins enough. -/
theorem edgesOf_intervals (h : 2 ≤ edges.length ∨ o.includeUnder = true) : o.edgesOf (o.intervals edges) = edges := by
  have hover : (if o.includeOver then [o.overInterval edges] else []).filterMap Interval.upper = [] := by
    cases o.includeOver <;> rfl
  unfold edgesOf intervals
  rw [List.filterMap_append, List.filterMap_append, filterMap_upper_innerIntervals, hover, List.append_nil]
  cases hunder : o.includeUnder with
  | true =>
    cases edges <;> rfl
  | false =>
    rcases h with h | h
    · match edges, h with
      | a :: b :: edges, _ =>
        obtain ⟨i, is, hinner, hlower⟩ := o.exists_innerIntervals_eq a b edges
        rw [hinner]
        simp [hlower]
    · rw [hunder] at h
      cases h

/-- Equal edges have the same labels only if they are the same edges. -/
theorem labels_eq_iff (h : List.Forall₂ Value.Alike edges edges')
    (hbins : 2 ≤ edges.length ∨ o.includeUnder = true) :
    (o.intervals edges).map Interval.label = (o.intervals edges').map Interval.label ↔ edges = edges' := by
  have hlabels := map_eq_iff_of_forall₂ (g := id) (intervals_alike (o := o) h) fun _ _ _ _ hij => hij.label_eq_iff
  rw [List.map_id, List.map_id] at hlabels
  rw [hlabels]
  constructor
  · intro hintervals
    rw [← edgesOf_intervals hbins, hintervals, edgesOf_intervals (h.length_eq ▸ hbins)]
  · intro hedges
    rw [hedges]

end BinOptions

end Columnar
