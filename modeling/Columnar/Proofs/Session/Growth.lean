import Columnar.Proofs.Expr.Outcome
import Columnar.Proofs.Session.Basic

/-!
# `Proofs.Session.Growth` — every construction adds well-typed nodes to the heap

## Contents
- `switchOn_grown`: the node of a switch, with and without a value to compare with.
- `Construction.grown`: on arguments from the heap, every construction ends on a larger heap that holds its
  result.
-/

namespace Columnar

/-! ## Switches -/

theorem Cases.mem_exprs {cases : Cases} {x : Expr} :
    x ∈ cases.exprs ↔ x ∈ cases.conditions ∨ x ∈ cases.thens ∨ x ∈ cases.default.toList := by
  unfold exprs conditions thens
  simp only [List.mem_append, List.mem_flatMap, List.mem_map, List.mem_cons, List.not_mem_nil,
    or_false]
  constructor
  · rintro (⟨p, hp, rfl | rfl⟩ | hd)
    · exact Or.inl ⟨p, hp, rfl⟩
    · exact Or.inr (Or.inl ⟨p, hp, rfl⟩)
    · exact Or.inr (Or.inr hd)
  · rintro (⟨p, hp, rfl⟩ | ⟨p, hp, rfl⟩ | hd)
    · exact Or.inl ⟨p, hp, Or.inl rfl⟩
    · exact Or.inl ⟨p, hp, Or.inr rfl⟩
    · exact Or.inr hd

theorem Cases.toOperands_subset {case : Option Expr} {cases : Cases} {es : List Expr}
    (hcase : ∀ e ∈ case, e ∈ es) (hcases : cases.exprs ⊆ es) :
    (cases.branches case).toOperands ⊆ es := by
  intro x hx
  unfold branches Branches.toOperands at hx
  simp only [List.mem_append, or_assoc] at hx
  rcases hx with hx | hx
  · exact hcase x (Option.mem_toList.mp hx)
  · exact hcases (Cases.mem_exprs.mpr hx)

/-- The typing rule of a switch, from the checks that its construction makes. -/
theorem Cases.typed {case : Option Expr} {cases : Cases} {t : ElementType} (hne : cases.pairs ≠ [])
    (hconds : ∀ x ∈ cases.conditions, x.type.AdmittedBy (case.map Expr.type))
    (ht : ElementType.promoteAll ((cases.thens ++ cases.default.toList).map Expr.type) = some t) :
    (Kind.switch case.isSome cases.default.isSome).Typed
      ((cases.branches case).toOperands.map Expr.signature)
      ⟨t, .combine ((cases.branches case).toOperands.map Expr.shape)⟩ := by
  have hshapes : (cases.branches case).toOperands.map Expr.shape
      = ((cases.branches case).map Expr.signature).toOperands.map Signature.shape := by
    rw [Branches.toOperands_map, List.map_map]
    rfl
  have hcase : case.isSome = ((cases.branches case).map Expr.signature).case.isSome :=
    Option.isSome_map.symm
  have hdefault : cases.default.isSome
      = ((cases.branches case).map Expr.signature).default.isSome :=
    Option.isSome_map.symm
  rw [hshapes, hcase, hdefault, ← Branches.toOperands_map]
  refine .switch (n := cases.pairs.length) (List.length_pos_iff.mpr hne) ?_ ?_ ?_ ?_
  · simp [Branches.map, branches, conditions]
  · simp [Branches.map, branches, thens]
  · intro c hc
    obtain ⟨x, hx, rfl⟩ := List.mem_map.mp hc
    have hx := hconds x hx
    cases case with
    | some value => exact hx
    | none => exact hx
  · have htypes : (((cases.branches case).map Expr.signature).thens
        ++ ((cases.branches case).map Expr.signature).default.toList).map Signature.type
        = (cases.thens ++ cases.default.toList).map Expr.type := by
      obtain ⟨pairs, default⟩ := cases
      cases default <;> simp [Branches.map, branches, thens]
    rw [htypes]
    exact ht

section

variable [Hasher] {catalog : Catalog} {heap : List Expr} {s : Supply} {r : Expr × Supply}

theorem Heap.switchOn_grown (h : Heap catalog heap s) {case : Option Expr} {cases : Cases}
    (hcase : ∀ e ∈ case, e ∈ heap) (hcases : cases.exprs ⊆ heap)
    (hr : Expr.switchOn case cases s = .ok r) : Grown catalog heap r.2 [r.1] := by
  obtain ⟨hne, hconds, t, ht, rfl⟩ := Expr.switchOn_eq_ok.mp hr
  exact h.grown_operation rfl (Cases.typed hne hconds ht) (Cases.toOperands_subset hcase hcases)

/-! ## All constructions -/

/-- Filling makes the node over a literal of the type of the receiver, or over an expression whose type
promotes to it. -/
theorem Heap.fillMissing_grown (h : Heap catalog heap s) {e value : Expr} (he : e ∈ heap)
    (hvalue : value ∈ heap) (hr : e.fillMissing value s = .ok r) : Grown catalog heap r.2 [r.1] := by
  obtain ⟨hscalar, f, s', hf, rfl⟩ := Expr.fillMissing_eq_ok.mp hr
  rcases Expr.fill_eq_ok.mp hf with ⟨v, w, _, hw, hf⟩ | ⟨_, ht, hf⟩
  · cases hf
    -- the literal is on the heap before the node is made over it
    have hliteral := h.grown_operation rfl (.literal (v := w)) (List.nil_subset _)
    refine hliteral.trans fun larger hsub hlarger hlit => ?_
    refine hlarger.grown_operation rfl (.fillMissing rfl ?_) ?_
    · show e.type.promote w.type = some e.type
      rw [Value.coerce_type hw]
      exact ElementType.promote_self e.type
    · exact List.cons_subset.mpr ⟨hsub he, hlit⟩
  · cases hf
    exact h.grown_operation rfl (.fillMissing hscalar ht) (by simp [he, hvalue])

/-- Every construction ends on a larger heap that holds its result. -/
theorem Construction.grown (h : Heap catalog heap s) {k : Construction} (hargs : k.arguments ⊆ heap)
    (hr : k.build s = .ok r) : Grown catalog heap r.2 [r.1] := by
  cases k with
  | literal v =>
    rw [Expr.literal_eq_ok.mp hr]
    exact h.grown_operation rfl .literal hargs
  | rename e name =>
    rw [Expr.rename_eq_ok.mp hr]
    exact h.grown_renamed name (hargs List.mem_cons_self)
  | binary e op rhs =>
    obtain ⟨t, ht, rfl⟩ := Expr.binary_eq_ok.mp hr
    exact h.grown_operation rfl (.binary ht) hargs
  | unary e op =>
    obtain ⟨t, ht, rfl⟩ := Expr.unary_eq_ok.mp hr
    exact h.grown_operation rfl (.unary ht) hargs
  | reduce e op =>
    obtain ⟨t, ht, rfl⟩ := Expr.reduce_eq_ok.mp hr
    exact h.grown_operation rfl (.reduce ht) hargs
  | cast e target =>
    rcases Expr.cast_eq_ok.mp hr with ⟨_, rfl⟩ | ⟨hne, hcast, rfl⟩
    · exact .rfl h hargs
    · exact h.grown_operation rfl (.cast hcast hne) hargs
  | isNull e | notNull e =>
    rw [Expr.nullTest_eq_ok.mp hr]
    exact h.grown_operation rfl (.unary rfl) hargs
  | fillMissing e value =>
    obtain ⟨he, hvalue⟩ := List.cons_subset.mp hargs
    exact h.fillMissing_grown he (hvalue List.mem_cons_self) hr
  | membership e negated candidates =>
    obtain ⟨hne, hcs, rfl⟩ := Expr.membership_eq_ok.mp hr
    refine h.grown_operation rfl (.membership ?_ ?_) hargs
    · simpa using hne
    · exact List.forall_mem_map.mpr hcs
  | between e lower upper inclusive =>
    obtain ⟨t, ht, rfl⟩ := Expr.between_eq_ok.mp hr
    exact h.grown_operation rfl (.between ht) hargs
  | conditional e ifTrue ifFalse =>
    obtain ⟨hc, t, ht, rfl⟩ := Expr.conditional_eq_ok.mp hr
    exact h.grown_operation rfl (.conditional hc ht) hargs
  | switch e cases =>
    obtain ⟨he, hcases⟩ := List.cons_subset.mp hargs
    have hr : Expr.switchOn (some e) cases s = .ok r := hr
    refine h.switchOn_grown ?_ hcases hr
    intro x hx
    cases hx
    exact he
  | cut e edges o =>
    obtain ⟨hnum, bins, _, rfl⟩ := Expr.cut_eq_ok.mp hr
    exact h.grown_operation rfl (.cut hnum) hargs

end

end Columnar
