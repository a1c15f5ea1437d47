import Columnar.Proofs.Bins.Count
import Columnar.Proofs.Expr.Binning
import Columnar.Proofs.Value.Coercion

/-!
# `Proofs.Expr.Cutting` — when numbers are sorted into bins, and why not

The checks of a cut come in a fixed order: the receiver, the number of edges, the edges one by one, their order, the
labels. Of an edge it is asked first whether it is numeric and then whether it is a NaN, and the first edge that
fails decides. So the kind of the refusal depends on what comes first among the edges.

## Contents
- `Value.IsNumber`, `edgeBound_eq_error`: what is asked of an edge.
- `binLabels_eq_ok`, `binLabels_eq_error`: what is asked of the labels.
- `AcceptsBins`, `makeBins_eq_ok_iff`: what is accepted.
- `RefusesBins`, `makeBins_eq_error`, `cut_eq_error`: the first fault of what is not.
- `NonNumericFirst`, `RefusesBins.category_eq_type_iff`: the kind of the refusal.
- `cut_outcome`: the outcome of a cut.
-/

namespace Columnar

/-! ## Edges -/

namespace Value

variable {v : Value}

/-- A number, or an infinity. -/
structure IsNumber (v : Value) : Prop where
  numeric : v.type.isNumeric = true
  notNaN : v.isNaN = false

theorem isNumber_iff : v.IsNumber ↔ ∃ n, v.number? = some n := by
  cases v with
  | int _ n => exact iff_of_true ⟨rfl, rfl⟩ ⟨_, rfl⟩
  | decimal d => exact iff_of_true ⟨rfl, rfl⟩ ⟨_, rfl⟩
  | float f x =>
    show _ ↔ ∃ n, x.number? = some n
    rw [← Option.ne_none_iff_exists', Ne, Binary.number?_eq_none_iff, Bool.not_eq_true]
    exact ⟨fun h => h.notNaN, fun h => ⟨rfl, h⟩⟩
  | boolean _ | string _ | datetime _ => exact iff_of_false (fun h => nomatch h.numeric) nofun

/-- A NaN is compared as a NaN. -/
theorem exists_asDouble_of_isNaN (h : v.isNaN = true) : ∃ x, v.asDouble = some x ∧ x.isNaN = true := by
  cases v with
  | float f x =>
    cases f with
    | single =>
      refine ⟨_, rfl, Binary.number?_eq_none_iff.mp ?_⟩
      rw [Binary.number?_convert]
      exact Binary.number?_eq_none_iff.mpr h
    | double => exact ⟨x, rfl, h⟩
  | _ => cases h

end Value

namespace Expr

variable {c : Checker} {edges : List Value} {o : BinOptions} {v : Value} {err : BuildError} {labels : List String}

/-- An edge must be numeric, and then it must not be a NaN. -/
theorem edgeBound_eq_error : edgeBound c v = .error err ↔
    (¬ v.type.isNumeric = true ∧ err = .invalidOperandType c.operator v.type)
      ∨ (v.type.isNumeric = true ∧ v.isNaN = true
        ∧ err = .invalidArgument c.operator ("bin edge " ++ v.text ++ " is not a number")) := by
  by_cases hnumber : v.IsNumber
  · obtain ⟨x, hx⟩ := (edgeBound_isOk_iff (c := c)).mpr (Value.isNumber_iff.mp hnumber)
    rw [hx]
    refine iff_of_false nofun ?_
    rintro (⟨hnumeric, _⟩ | ⟨_, hnan, _⟩)
    · exact hnumeric hnumber.numeric
    · rw [hnumber.notNaN] at hnan
      cases hnan
  · unfold edgeBound
    rw [except_bind_eq_error]
    simp only [Checker.expectNumeric_eq_error, Checker.expectNumeric_eq_ok]
    refine or_congr Iff.rfl ?_
    constructor
    · rintro ⟨_, hnumeric, h⟩
      have hnan : v.isNaN = true := by
        cases hnan : v.isNaN with
        | true => rfl
        | false => exact absurd ⟨hnumeric, hnan⟩ hnumber
      obtain ⟨x, hx, hxnan⟩ := Value.exists_asDouble_of_isNaN hnan
      simp only [hx, hxnan, if_true] at h
      cases h
      exact ⟨hnumeric, hnan, rfl⟩
    · rintro ⟨hnumeric, hnan, rfl⟩
      obtain ⟨x, hx, hxnan⟩ := Value.exists_asDouble_of_isNaN hnan
      refine ⟨(), hnumeric, ?_⟩
      simp only [hx, hxnan, if_true]
      rfl

/-! ## Labels -/

theorem binLabels_eq_ok : binLabels c edges o = .ok labels ↔
    (∀ given, o.labels = some given → given.length = o.binCount edges.length) ∧ labels = o.labelsFor edges := by
  unfold binLabels BinOptions.labelsFor
  cases o.labels with
  | none =>
    show Except.ok _ = _ ↔ _
    simp [eq_comm]
  | some given =>
    simp only [except_bind_eq_ok, Checker.expectCount_eq_ok, beq_iff_eq]
    show (∃ _, _ ∧ Except.ok given = _) ↔ _
    simp [eq_comm]

theorem binLabels_eq_error : binLabels c edges o = .error err ↔
    ∃ given, o.labels = some given ∧ given.length ≠ o.binCount edges.length
      ∧ err = .argumentCount c.operator (String.ofList (Text.digits (o.binCount edges.length)) ++ " labels")
        given.length := by
  unfold binLabels
  cases o.labels with
  | none => exact iff_of_false nofun nofun
  | some given =>
    simp only [except_bind_eq_error, Checker.expectCount_eq_error, beq_iff_eq]
    constructor
    · rintro (⟨hlength, rfl⟩ | ⟨_, _, h⟩)
      · exact ⟨given, rfl, hlength, rfl⟩
      · cases h
    · rintro ⟨_, ⟨⟩, hlength, rfl⟩
      exact .inl ⟨hlength, rfl⟩

/-! ## What is accepted -/

/-- There are edges enough for a bin: two, or one between two open bins. -/
def Enough (edges : List Value) (o : BinOptions) : Prop :=
  2 ≤ edges.length ∨ (edges.length = 1 ∧ o.includeUnder = true ∧ o.includeOver = true)

theorem enough_iff : Enough edges o
    ↔ edges ≠ [] ∧ (2 ≤ edges.length ∨ o.includeUnder = true ∧ o.includeOver = true) := by
  have hne : edges ≠ [] ↔ 1 ≤ edges.length := List.length_pos_iff.symm
  unfold Enough
  rw [hne]
  constructor
  · rintro (h | ⟨h, hopen⟩)
    · exact ⟨by omega, .inl h⟩
    · exact ⟨by omega, .inr hopen⟩
  · rintro ⟨hpos, h | hopen⟩
    · exact .inl h
    · by_cases h : edges.length = 1
      · exact .inr ⟨h, hopen⟩
      · exact .inl (by omega)

/-- What bins are made of: edges that are enough, are all numbers and are compared by increasing ones, and as many
labels as bins if labels are given. -/
structure AcceptsBins (edges : List Value) (o : BinOptions) : Prop where
  enough : Enough edges o
  numbers : ∀ v ∈ edges, v.IsNumber
  increasing : Increasing Value.compared? edges
  labels : ∀ given, o.labels = some given → given.length = o.binCount edges.length

/-- The bins of edges that are accepted. -/
def binsOf (edges : List Value) (o : BinOptions) : Bins :=
  ⟨edges, o.labelsFor edges, o.right, o.includeLowest, o.includeUnder, o.includeOver⟩

theorem numbers_iff : (∀ v ∈ edges, v.IsNumber) ↔ ∀ v ∈ edges, ∃ n, v.number? = some n :=
  forall₂_congr fun _ _ => Value.isNumber_iff

theorem mapM_edgeBound_eq_ok_iff {xs : List (Binary .double)} :
    edges.mapM (edgeBound c) = .ok xs ↔ (∀ v ∈ edges, v.IsNumber) ∧ xs = bounds edges := by
  rw [numbers_iff]
  constructor
  · intro h
    refine ⟨fun v hv => ?_, bounds_of_mapM_eq_ok h⟩
    obtain ⟨x, _, hx⟩ := exists_of_forall₂ (mapM_eq_ok.mp h).flip hv
    exact edgeBound_isOk_iff.mp ⟨x, hx⟩
  · rintro ⟨hnumbers, rfl⟩
    exact mapM_edgeBound_eq_ok hnumbers

theorem makeBins_eq_ok_iff {bins : Bins} :
    makeBins c edges o = .ok bins ↔ AcceptsBins edges o ∧ bins = binsOf edges o := by
  simp only [makeBins_eq_ok, mapM_edgeBound_eq_ok_iff, binLabels_eq_ok]
  constructor
  · rintro ⟨hne, henough, _, _, ⟨hnumbers, rfl⟩, hordered, ⟨hlabels, rfl⟩, rfl⟩
    have hincreasing := (increasing_compared_iff (numbers_iff.mp hnumbers)).mpr hordered
    exact ⟨⟨enough_iff.mpr ⟨hne, henough⟩, hnumbers, hincreasing, hlabels⟩, rfl⟩
  · rintro ⟨⟨henough, hnumbers, hincreasing, hlabels⟩, rfl⟩
    obtain ⟨hne, henough⟩ := enough_iff.mp henough
    have hordered := (increasing_compared_iff (numbers_iff.mp hnumbers)).mp hincreasing
    exact ⟨hne, henough, _, _, ⟨hnumbers, rfl⟩, hordered, ⟨hlabels, rfl⟩, rfl⟩

/-! ## What is refused -/

/-- Why bins are not made: the first fault in the order of the checks. -/
inductive RefusesBins (edges : List Value) (o : BinOptions) : BuildError → Prop
  | noEdge : edges = [] → RefusesBins edges o (.argumentCount "cut" "at least 1 bin edge" 0)
  | fewEdges : edges ≠ [] → ¬ Enough edges o →
      RefusesBins edges o (.argumentCount "cut" "at least 2 bin edges, or 1 with both open bins" edges.length)
  | notNumeric {v : Value} : Enough edges o → FirstNot Value.IsNumber edges v → ¬ v.type.isNumeric = true →
      RefusesBins edges o (.invalidOperandType "cut" v.type)
  | notANumber {v : Value} : Enough edges o → FirstNot Value.IsNumber edges v → v.type.isNumeric = true →
      RefusesBins edges o (.invalidArgument "cut" ("bin edge " ++ v.text ++ " is not a number"))
  | notIncreasing : Enough edges o → (∀ v ∈ edges, v.IsNumber) → ¬ Increasing Value.compared? edges →
      RefusesBins edges o notAscending
  | labels {given : List String} : Enough edges o → (∀ v ∈ edges, v.IsNumber) →
      Increasing Value.compared? edges → o.labels = some given → given.length ≠ o.binCount edges.length →
      RefusesBins edges o (.argumentCount "cut"
        (String.ofList (Text.digits (o.binCount edges.length)) ++ " labels") given.length)

theorem mapM_edgeBound_eq_error : edges.mapM (edgeBound c) = .error err ↔ ∃ v, FirstNot Value.IsNumber edges v
    ∧ ((¬ v.type.isNumeric = true ∧ err = .invalidOperandType c.operator v.type)
      ∨ (v.type.isNumeric = true
        ∧ err = .invalidArgument c.operator ("bin edge " ++ v.text ++ " is not a number"))) := by
  simp only [mapM_eq_error, edgeBound_isOk_iff, ← Value.isNumber_iff, edgeBound_eq_error]
  refine exists_congr fun v => and_congr_right fun hfirst => or_congr_right (and_congr_right fun hnumeric => ?_)
  -- a numeric edge that is no number is a NaN
  refine and_iff_right ?_
  cases hnan : v.isNaN with
  | true => rfl
  | false => exact absurd ⟨hnumeric, hnan⟩ hfirst.not

theorem expectEdges_eq_ok {u : Unit} :
    Checker.expectCount c (decide (2 ≤ edges.length) || (o.includeUnder && o.includeOver))
      "at least 2 bin edges, or 1 with both open bins" edges.length = .ok u
        ↔ 2 ≤ edges.length ∨ o.includeUnder = true ∧ o.includeOver = true := by
  rw [Checker.expectCount_eq_ok]
  simp

theorem expectEdges_eq_error :
    Checker.expectCount c (decide (2 ≤ edges.length) || (o.includeUnder && o.includeOver))
      "at least 2 bin edges, or 1 with both open bins" edges.length = .error err
        ↔ ¬ (2 ≤ edges.length ∨ o.includeUnder = true ∧ o.includeOver = true)
          ∧ err = .argumentCount c.operator "at least 2 bin edges, or 1 with both open bins" edges.length := by
  rw [Checker.expectCount_eq_error]
  simp

/-- Bins are refused for the first fault, check by check. -/
theorem makeBins_eq_error : makeBins ⟨"cut"⟩ edges o = .error err ↔ RefusesBins edges o err := by
  rw [makeBins_eq]
  simp only [except_bind_eq_error, Checker.expectCount_isEmpty_eq_ok, Checker.expectCount_isEmpty_eq_error,
    expectEdges_eq_ok, expectEdges_eq_error, mapM_edgeBound_eq_ok_iff, mapM_edgeBound_eq_error, guard_eq_ok,
    guard_eq_error, binLabels_eq_error]
  constructor
  · rintro (⟨hnone, rfl⟩ | ⟨_, hne, ⟨hfew, rfl⟩ | ⟨_, henough, h⟩⟩)
    · exact .noEdge hnone
    · exact .fewEdges hne fun henough => hfew (enough_iff.mp henough).2
    · have henough : Enough edges o := enough_iff.mpr ⟨hne, henough⟩
      rcases h with ⟨v, hfirst, ⟨hnumeric, rfl⟩ | ⟨hnumeric, rfl⟩⟩ | ⟨_, ⟨hnumbers, rfl⟩, h⟩
      · exact .notNumeric henough hfirst hnumeric
      · exact .notANumber henough hfirst hnumeric
      · rw [← increasing_compared_iff (numbers_iff.mp hnumbers)] at h
        rcases h with ⟨hnot, rfl⟩ | ⟨_, hincreasing, ⟨given, hgiven, hlength, rfl⟩ | ⟨_, _, h⟩⟩
        · exact .notIncreasing henough hnumbers hnot
        · exact .labels henough hnumbers hincreasing hgiven hlength
        · cases h
  · intro h
    cases h with
    | noEdge hnone => exact .inl ⟨hnone, rfl⟩
    | fewEdges hne hfew => exact .inr ⟨(), hne, .inl ⟨fun h => hfew (enough_iff.mpr ⟨hne, h⟩), rfl⟩⟩
    | notNumeric henough hfirst hnumeric =>
      obtain ⟨hne, henough⟩ := enough_iff.mp henough
      exact .inr ⟨(), hne, .inr ⟨(), henough, .inl ⟨_, hfirst, .inl ⟨hnumeric, rfl⟩⟩⟩⟩
    | notANumber henough hfirst hnumeric =>
      obtain ⟨hne, henough⟩ := enough_iff.mp henough
      exact .inr ⟨(), hne, .inr ⟨(), henough, .inl ⟨_, hfirst, .inr ⟨hnumeric, rfl⟩⟩⟩⟩
    | notIncreasing henough hnumbers hnot =>
      obtain ⟨hne, henough⟩ := enough_iff.mp henough
      rw [increasing_compared_iff (numbers_iff.mp hnumbers)] at hnot
      exact .inr ⟨(), hne, .inr ⟨(), henough, .inr ⟨_, ⟨hnumbers, rfl⟩, .inl ⟨hnot, rfl⟩⟩⟩⟩
    | labels henough hnumbers hincreasing hgiven hlength =>
      obtain ⟨hne, henough⟩ := enough_iff.mp henough
      rw [increasing_compared_iff (numbers_iff.mp hnumbers)] at hincreasing
      exact .inr ⟨(), hne, .inr ⟨(), henough, .inr ⟨_, ⟨hnumbers, rfl⟩, .inr ⟨(), hincreasing,
        .inl ⟨_, hgiven, hlength, rfl⟩⟩⟩⟩⟩

/-! ## The kind of the refusal -/

/-- An edge that is not numeric comes before every NaN. -/
def NonNumericFirst (edges : List Value) : Prop :=
  ∃ before v after, edges = before ++ v :: after ∧ ¬ v.type.isNumeric = true ∧ ∀ w ∈ before, w.isNaN = false

/-- Of two kinds of bad edges the first bad edge tells which comes first. -/
theorem nonNumericFirst_iff :
    NonNumericFirst edges ↔ ∃ v, FirstNot Value.IsNumber edges v ∧ ¬ v.type.isNumeric = true := by
  constructor
  · rintro ⟨before, v, after, rfl, hnumeric, hbefore⟩
    obtain ⟨w, hfirst, hw⟩ := exists_firstNot (P := Value.IsNumber) before after fun h => hnumeric h.numeric
    refine ⟨w, hfirst, ?_⟩
    rcases hw with hw | rfl
    · exact fun hwnumeric => hfirst.not ⟨hwnumeric, hbefore w hw⟩
    · exact hnumeric
  · rintro ⟨v, ⟨before, after, rfl, hbefore, _⟩, hnumeric⟩
    exact ⟨before, v, after, rfl, hnumeric, fun w hw => (hbefore w hw).notNaN⟩

/-- The refusal is one of types only where the first bad edge is not numeric. -/
theorem RefusesBins.category_eq_type_iff (h : RefusesBins edges o err) :
    err.category = .type ↔ Enough edges o ∧ NonNumericFirst edges := by
  rw [nonNumericFirst_iff]
  cases h with
  | noEdge hnone =>
    refine iff_of_false nofun ?_
    rintro ⟨_, v, hfirst, _⟩
    exact hfirst.ne_nil hnone
  | fewEdges _ hfew => exact iff_of_false nofun fun h => hfew h.1
  | notNumeric henough hfirst hnumeric => exact iff_of_true rfl ⟨henough, _, hfirst, hnumeric⟩
  | notANumber _ hfirst hnumeric =>
    refine iff_of_false nofun ?_
    rintro ⟨_, w, hfirst', hnot⟩
    rw [hfirst.unique hfirst'] at hnumeric
    exact hnot hnumeric
  | notIncreasing _ hnumbers | labels _ hnumbers =>
    refine iff_of_false nofun ?_
    rintro ⟨_, v, hfirst, _⟩
    exact hfirst.not (hnumbers v hfirst.mem)

theorem RefusesBins.category (h : RefusesBins edges o err) : err.category = .type ∨ err.category = .value := by
  cases h with
  | notNumeric => exact .inl rfl
  | noEdge | fewEdges | notANumber | notIncreasing | labels => exact .inr rfl

/-! ## The outcome -/

section

variable [Hasher] {e : Expr} {s : Supply}

theorem cut_eq_error : e.cut edges o s = .error err ↔
    (¬ e.type.isNumeric = true ∧ err = .invalidOperandType "cut" e.type)
      ∨ (e.type.isNumeric = true ∧ RefusesBins edges o err) := by
  unfold cut
  simp only [Build.check_eq_error, Checker.expectNumeric_eq_error, Checker.expectNumeric_eq_ok, makeBins_eq_error]
  constructor
  · rintro (hreceiver | ⟨_, hreceiver, hrefuses | ⟨_, _, hnode⟩⟩)
    · exact .inl hreceiver
    · exact .inr ⟨hreceiver, hrefuses⟩
    · cases hnode
  · rintro (hreceiver | ⟨hreceiver, hrefuses⟩)
    · exact .inl hreceiver
    · exact .inr ⟨(), hreceiver, .inl hrefuses⟩

/-- A cut succeeds exactly if the receiver is numeric and the edges and options are accepted. It is a string of the
shape of the receiver, and holds the edges in order and a label for each bin, at least one: those that are given, or
those that are generated, which are as many for any edges and options and of which each inner one shows the two edges
that it lies between. Otherwise the first fault decides. It is one of types exactly if the receiver is not numeric, or
if there are edges enough and one that is not numeric comes before every NaN; and it is one of values if it is not one
of types. -/
theorem cut_outcome (e : Expr) (edges : List Value) (o : BinOptions) (s : Supply) :
    ((∃ r, e.cut edges o s = .ok r) ↔ e.type.isNumeric = true ∧ AcceptsBins edges o)
      ∧ (∀ r, e.cut edges o s = .ok r →
        r.1.kind = .cut (binsOf edges o) ∧ r.1.type = .string ∧ r.1.shape = e.shape ∧ r.1.operands = [e]
          ∧ (o.labelsFor edges).length = o.binCount edges.length ∧ 1 ≤ (o.labelsFor edges).length)
      ∧ (∀ (o : BinOptions) edges, ((o.intervals edges).map Interval.label).length = o.binCount edges.length
        ∧ ∀ (k : Nat) v w, edges[k]? = some v → edges[k + 1]? = some w →
          ((o.intervals edges).map Interval.label)[o.includeUnder.toNat + k]?
            = some ((if !o.right || (o.includeLowest && k == 0) then "[" else "(") ++ v.text ++ ", " ++ w.text
              ++ (if o.right || (o.includeLowest && k + 2 == edges.length) then "]" else ")")))
      ∧ ∀ err, e.cut edges o s = .error err →
        (err.category = .type ↔ ¬ e.type.isNumeric = true ∨ (Enough edges o ∧ NonNumericFirst edges))
          ∧ (err.category = .type ∨ err.category = .value) := by
  refine ⟨?_, fun r hr => ?_, fun o edges => ⟨?_, fun k v w => BinOptions.getElem?_map_label⟩, fun err herr => ?_⟩
  · simp only [cut_eq_ok, makeBins_eq_ok_iff]
    constructor
    · rintro ⟨_, hreceiver, _, ⟨haccepts, _⟩, _⟩
      exact ⟨hreceiver, haccepts⟩
    · rintro ⟨hreceiver, haccepts⟩
      exact ⟨_, hreceiver, _, ⟨haccepts, rfl⟩, rfl⟩
  · obtain ⟨_, bins, hbins, rfl⟩ := cut_eq_ok.mp hr
    obtain ⟨haccepts, rfl⟩ := makeBins_eq_ok_iff.mp hbins
    have hlength := BinOptions.length_labelsFor haccepts.labels
    refine ⟨rfl, rfl, rfl, rfl, hlength, ?_⟩
    rw [hlength]
    exact BinOptions.binCount_pos (enough_iff.mp haccepts.enough).2
  · exact (List.length_map _).trans (o.length_intervals edges)
  · rcases cut_eq_error.mp herr with ⟨hreceiver, rfl⟩ | ⟨hreceiver, hrefuses⟩
    · exact ⟨iff_of_true rfl (.inl hreceiver), .inl rfl⟩
    · refine ⟨?_, hrefuses.category⟩
      rw [hrefuses.category_eq_type_iff, or_iff_right (not_not_intro hreceiver)]

end

end Expr

/-! ### One edge, and edges that are no numbers -/

def Sales.notANumber : Value := .float .single ⟨false, FloatFormat.single.infinity + 1, by decide⟩

namespace Expr

open Sales in
/-- One edge lies between two open bins. A text as an edge is a fault of types, but behind a NaN it is not seen. -/
theorem cut_outcome_texts : (∃ r, @cut .standard quantity [edge 5 (by decide)] openBins {} = .ok r)
    ∧ (∃ err, @cut .standard quantity [.string "low", notANumber] openBins {} = .error err ∧ err.category = .type)
    ∧ ∃ err, @cut .standard quantity [notANumber, .string "low"] openBins {} = .error err ∧ err.category = .value := by
  let _ : Hasher := .standard
  have houtcome := fun edges => cut_outcome quantity edges openBins {}
  have hlone : AcceptsBins [edge 5 (by decide)] openBins := by
    have hnumbers : ∀ v ∈ [edge 5 (by decide)], v.IsNumber := List.forall_mem_singleton.mpr ⟨rfl, rfl⟩
    exact ⟨.inr ⟨rfl, rfl, rfl⟩, hnumbers, (increasing_compared_iff (numbers_iff.mp hnumbers)).mpr (by decide), nofun⟩
  have hrefused : ∀ edges, ¬ (∀ v ∈ edges, v.IsNumber) → ∃ err, cut quantity edges openBins {} = .error err := by
    intro edges hnot
    cases hr : cut quantity edges openBins {} with
    | ok r => exact absurd ((houtcome edges).1.mp ⟨r, hr⟩).2.numbers hnot
    | error err => exact ⟨err, rfl⟩
  have htext : ¬ (Value.string "low").IsNumber := fun h => nomatch h.numeric
  obtain ⟨err, herr⟩ := hrefused [.string "low", notANumber] fun h => htext (h _ List.mem_cons_self)
  obtain ⟨err', herr'⟩ := hrefused [notANumber, .string "low"] fun h => htext (h _ (by simp))
  refine ⟨(houtcome _).1.mpr ⟨rfl, hlone⟩, ⟨err, herr, ?_⟩, ⟨err', herr', ?_⟩⟩
  · obtain ⟨hcategory, _⟩ := (houtcome _).2.2.2 err herr
    exact hcategory.mpr (.inr ⟨.inl (Nat.le_refl 2), [], _, _, rfl, nofun, List.forall_mem_nil _⟩)
  · obtain ⟨hcategory, hkind⟩ := (houtcome _).2.2.2 err' herr'
    refine hkind.resolve_left fun htype => ?_
    rcases hcategory.mp htype with hreceiver | ⟨_, hfirst⟩
    · exact hreceiver rfl
    · obtain ⟨v, hv, hnumeric⟩ := nonNumericFirst_iff.mp hfirst
      have hnan : FirstNot Value.IsNumber [notANumber, .string "low"] notANumber :=
        ⟨[], [.string "low"], rfl, List.forall_mem_nil _, fun h => nomatch h.notNaN⟩
      rw [hv.unique hnan] at hnumeric
      exact hnumeric rfl

end Expr

end Columnar
