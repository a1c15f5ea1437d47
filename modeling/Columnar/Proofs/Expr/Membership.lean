import Columnar.Proofs.ElementType.Order
import Columnar.Proofs.Expr.Outcome

/-!
# `Proofs.Expr.Membership` — which candidates a membership test takes

The candidates are checked one by one, each against the receiver only. But types that can be compared with one type
belong to its family, so the receiver and all candidates have a common type as well.

## Contents
- `Compares`, `checkCandidate_eq_ok`, `checkCandidate_eq_error`: what is asked of a candidate, in order.
- `RefusesCandidates`, `membership_eq_error`: why a test is refused.
- `membership_outcome`: the outcome of a test, and tests of zones.
-/

namespace Columnar.Expr

variable {e x : Expr} {c : Checker} {negated : Bool} {candidates : List Expr} {err : BuildError} {u : Unit}

/-! ## One candidate -/

/-- A candidate for a membership test: a single value, of a type that has a common type with that of the receiver. -/
structure Compares (e x : Expr) : Prop where
  single : x.shape = .scalar
  promotable : e.type.Promotable x.type

theorem checkCandidate_eq_ok : checkCandidate c e.type x = .ok u ↔ e.Compares x := by
  unfold checkCandidate
  simp only [except_bind_eq_ok, Checker.expectScalar_eq_ok, Checker.checkCompatible_eq_ok]
  constructor
  · rintro ⟨_, hsingle, hpromotable⟩
    exact ⟨hsingle, hpromotable⟩
  · rintro ⟨hsingle, hpromotable⟩
    exact ⟨(), hsingle, hpromotable⟩

/-- The shape of a candidate is asked for before its type. -/
theorem checkCandidate_eq_error : checkCandidate c e.type x = .error err ↔
    (x.shape ≠ .scalar ∧ err = .invalidArgument c.operator ("candidate must be a scalar, got " ++ x.text))
      ∨ (x.shape = .scalar ∧ ¬ e.type.Promotable x.type ∧ err = .noCommonType e.type x.type c.operator) := by
  unfold checkCandidate
  simp only [except_bind_eq_error, Checker.expectScalar_eq_error, Checker.expectScalar_eq_ok,
    Checker.checkCompatible_eq_error]
  constructor
  · rintro (hsequence | ⟨_, hsingle, hother⟩)
    · exact .inl hsequence
    · exact .inr ⟨hsingle, hother⟩
  · rintro (hsequence | ⟨hsingle, hother⟩)
    · exact .inl hsequence
    · exact .inr ⟨(), hsingle, hother⟩

/-! ## All candidates -/

/-- Why a membership test is refused: there is no candidate, or the first one that is not as it should be yields one
value per row, or else is of a type that cannot be compared. -/
inductive RefusesCandidates (e : Expr) (operator : String) (candidates : List Expr) : BuildError → Prop
  | noCandidate : candidates = [] →
      RefusesCandidates e operator candidates (.argumentCount operator "at least one candidate" 0)
  | notSingle {x : Expr} : FirstNot e.Compares candidates x → x.shape ≠ .scalar →
      RefusesCandidates e operator candidates
        (.invalidArgument operator ("candidate must be a scalar, got " ++ x.text))
  | incomparable {x : Expr} : FirstNot e.Compares candidates x → x.shape = .scalar →
      RefusesCandidates e operator candidates (.noCommonType e.type x.type operator)

theorem checkCandidates_eq_error : checkCandidates c e.type candidates = .error err ↔
    candidates ≠ [] ∧ e.RefusesCandidates c.operator candidates err := by
  simp only [checkCandidates, forM_eq_error, checkCandidate_eq_ok, checkCandidate_eq_error]
  constructor
  · rintro ⟨x, hfirst, ⟨hsequence, rfl⟩ | ⟨hsingle, _, rfl⟩⟩
    · exact ⟨hfirst.ne_nil, .notSingle hfirst hsequence⟩
    · exact ⟨hfirst.ne_nil, .incomparable hfirst hsingle⟩
  · rintro ⟨hne, hrefuses⟩
    cases hrefuses with
    | noCandidate hnone => exact absurd hnone hne
    | notSingle hfirst hsequence => exact ⟨_, hfirst, .inl ⟨hsequence, rfl⟩⟩
    | incomparable hfirst hsingle =>
      exact ⟨_, hfirst, .inr ⟨hsingle, fun hpromotable => hfirst.not ⟨hsingle, hpromotable⟩, rfl⟩⟩

section

variable [Hasher] {s : Supply}

/-- A test is refused as its checks are, and its node is made without any. -/
theorem membership_eq_error : e.membership negated candidates s = .error err ↔
    e.RefusesCandidates (if negated then "notin" else "isin") candidates err := by
  unfold membership
  simp only [Build.check_eq_error, Checker.expectCount_isEmpty_eq_ok, Checker.expectCount_isEmpty_eq_error,
    checkCandidates_eq_error]
  constructor
  · rintro (⟨hnone, rfl⟩ | ⟨_, _, ⟨_, hrefuses⟩ | ⟨_, _, hnode⟩⟩)
    · exact .noCandidate hnone
    · exact hrefuses
    · cases hnode
  · intro hrefuses
    by_cases hne : candidates = []
    · cases hrefuses with
      | noCandidate => exact .inl ⟨hne, rfl⟩
      | notSingle hfirst | incomparable hfirst => exact absurd hne hfirst.ne_nil
    · exact .inr ⟨(), hne, .inl ⟨hne, hrefuses⟩⟩

/-! ## The outcome -/

/-- A membership test succeeds exactly if there is a candidate and every candidate can be compared with the receiver.
It is over the receiver and the candidates, as they were given and in their order, is boolean and of the shape of the
receiver; and the receiver and all candidates have a common type, though each candidate was checked alone. Otherwise
the test is refused for the first candidate that cannot be compared, for its shape before its type. -/
theorem membership_outcome (e : Expr) (negated : Bool) (candidates : List Expr) (s : Supply) :
    ((∃ r, e.membership negated candidates s = .ok r) ↔ candidates ≠ [] ∧ ∀ x ∈ candidates, e.Compares x)
      ∧ (∀ r, e.membership negated candidates s = .ok r →
        r.1.kind = .membership negated ∧ r.1.candidates = candidates ∧ r.1.operands = e :: candidates
          ∧ r.1.type = .boolean ∧ r.1.shape = e.shape
          ∧ ∃ t, ElementType.promoteAll ((e :: candidates).map Expr.type) = some t)
      ∧ ∀ err, e.membership negated candidates s = .error err ↔
        e.RefusesCandidates (if negated then "notin" else "isin") candidates err := by
  refine ⟨?_, fun r hr => ?_, fun err => membership_eq_error⟩
  · simp only [membership_eq_ok]
    constructor
    · rintro ⟨_, hne, hall, _⟩
      exact ⟨hne, fun x hx => ⟨(hall x hx).1, (hall x hx).2⟩⟩
    · rintro ⟨hne, hall⟩
      exact ⟨_, hne, fun x hx => ⟨(hall x hx).single, (hall x hx).promotable⟩, rfl⟩
  · obtain ⟨_, hall, rfl⟩ := membership_eq_ok.mp hr
    refine ⟨rfl, rfl, rfl, rfl, rfl, ElementType.exists_promoteAll_of_forall ?_⟩
    rintro t ht
    obtain ⟨x, hx, rfl⟩ := List.mem_map.mp ht
    exact (hall x hx).2

end

end Columnar.Expr

/-! ### Zones and lines -/

namespace Columnar.Trips

def zone : Expr := .node ⟨0⟩ 0 (.column "zone" ⟨1⟩) (.int .w16) .sequence none []

def one : Expr := .node ⟨1⟩ 0 (.literal (.int .w8 ⟨1, by decide⟩)) (.int .w8) .scalar none []

def line : Expr := .node ⟨2⟩ 0 (.literal (.string "A")) .string .scalar none []

end Columnar.Trips

namespace Columnar.Expr

open Trips in
/-- An integer can be compared with a wider one, and a text cannot; of two bad candidates the first is reported. -/
theorem membership_outcome_zones : (∃ r, @membership .standard zone false [one, one] {} = .ok r)
    ∧ @membership .standard zone true [one, zone, line] {}
      = .error (.invalidArgument "notin" "candidate must be a scalar, got zone")
    ∧ @membership .standard zone false [one, line, zone] {} = .error (.noCommonType (.int .w16) .string "isin") := by
  let _ : Hasher := .standard
  have hone : zone.Compares one := ⟨rfl, _, rfl⟩
  obtain ⟨haccepted, _⟩ := membership_outcome zone false [one, one] {}
  obtain ⟨_, _, hnotin⟩ := membership_outcome zone true [one, zone, line] {}
  obtain ⟨_, _, hisin⟩ := membership_outcome zone false [one, line, zone] {}
  have hsequence : zone.RefusesCandidates "notin" [one, zone, line]
      (.invalidArgument "notin" ("candidate must be a scalar, got " ++ zone.text)) :=
    .notSingle ⟨[one], [line], rfl, List.forall_mem_singleton.mpr hone, fun h => nomatch h.single⟩ nofun
  have htext : zone.text = "zone" := by decide
  rw [htext] at hsequence
  refine ⟨haccepted.mpr ⟨nofun, by simp [hone]⟩, (hnotin _).mpr hsequence, (hisin _).mpr ?_⟩
  refine .incomparable ⟨[one], [zone], rfl, List.forall_mem_singleton.mpr hone, fun h => ?_⟩ rfl
  obtain ⟨t, ht⟩ := h.promotable
  cases ht

end Columnar.Expr
