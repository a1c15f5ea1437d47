import Columnar.Proofs.Expr.Document
import Columnar.Proofs.Session.Equality

/-!
# `Proofs.Session.Document` — documents tell expressions apart

A backend is sent the document of an expression and nothing else. Where no user function is called and no float
is infinite or a NaN, the document is enough but for one thing: a second among the nanoseconds of a moment is written
as any other second. What else it leaves out, equality does not see either.

## Contents
- `reachable_same_of_toJson_eq`: when expressions of one document are equal.
- `Noon.session`, `Noon.one_document`: two moments of one document.
-/

namespace Columnar

/-- A filled column has no function and no float in it. -/
theorem Orders.settled_plain (number literal : Nat) (name : Option String) :
    (settled number (no literal) name).Plain := by
  intro n hn
  have hnode : n ∈ [settled number (no literal) name, paid, no literal] := hn
  simp only [List.mem_cons, List.not_mem_nil, or_false] at hnode
  rcases hnode with rfl | rfl | rfl
  · exact ⟨rfl, fun _ hv => absurd hv List.not_mem_nil⟩
  · exact ⟨rfl, fun _ hv => absurd hv List.not_mem_nil⟩
  · exact ⟨rfl, List.forall_mem_singleton.mpr rfl⟩

/-! ## A session of two moments -/

namespace Noon

def moment (number : Nat) (t : Datetime) : Expr :=
  .node ⟨number⟩ 0 (.literal (.datetime t)) .datetime .scalar none []

/-- A second and a half after noon is given twice, with the whole second among the nanoseconds and without. -/
def session : Session where
  supply := ⟨2, 1, 0⟩
  exprs := [moment 1 counted, moment 0 uncounted]

theorem session_reachable : @Session.Reachable Orders.collide session := by
  let _ : Hasher := Orders.collide
  have hfirst : Session.Reachable { supply := ⟨1, 1, 0⟩, exprs := [moment 0 uncounted] } :=
    .step .start (.construct (.literal (.datetime uncounted)) nofun rfl)
  exact .step hfirst (.construct (.literal (.datetime counted)) nofun rfl)

theorem has_counted : session.Has (moment 1 counted) := .returned List.mem_cons_self

theorem has_uncounted : session.Has (moment 0 uncounted) := .returned (List.mem_cons_of_mem _ List.mem_cons_self)

theorem moment_plain (number : Nat) (t : Datetime) : (moment number t).Plain := by
  intro n hn
  obtain rfl : n = moment number t := List.mem_singleton.mp hn
  exact ⟨rfl, List.forall_mem_singleton.mpr rfl⟩

theorem toJson_eq : (moment 0 uncounted).toJson = (moment 1 counted).toJson := by
  rw [Expr.toJson_eq, Expr.toJson_eq]
  rfl

end Noon

/-! ## Equality of documents -/

namespace Session

/-- In every reachable session, expressions of one document that call no user function and have no infinity and no NaN
among their literals and edges are equal exactly if these values are the same, and they are the same but for seconds
among the nanoseconds of a moment. So the expressions are equal where no moment has such a second, other than a leap
second. -/
theorem reachable_same_of_toJson_eq [Hasher] {s : Session} (h : Reachable s) {a b : Expr} (ha : s.Has a)
    (hb : s.Has b) (hpa : a.Plain) (hpb : b.Plain) (hjson : a.toJson = b.toJson) :
    (a.same b = true ↔ a.values = b.values)
      ∧ a.values.map Value.carried = b.values.map Value.carried
      ∧ ((∀ v ∈ a.values, v.IsRegular) → (∀ v ∈ b.values, v.IsRegular) → a.same b = true) := by
  obtain ⟨heap, hsound⟩ := h.sound
  have hcarried := hpa.carried_values_eq hpb hjson
  have hiff : a.same b = true ↔ a.values = b.values := by
    rw [hsound.same_iff_alike ha hb]
    exact ⟨fun halike => halike.toJson_eq_iff.mp hjson, hpa.alike_of_toJson_eq hpb hjson⟩
  refine ⟨hiff, hcarried, fun hra hrb => hiff.mpr ?_⟩
  rwa [Value.map_carried hra, Value.map_carried hrb] at hcarried

/-- Two calls that fill one column in the same way return different nodes of one document, and these are equal. Two
moments of one document are not, where one of them has a second among its nanoseconds. -/
theorem reachable_same_of_toJson_eq_orders : @Reachable Orders.collide Orders.filled
    ∧ (Orders.settled 5 (Orders.no 4) none).identical (Orders.settled 3 (Orders.no 2) none) = false
    ∧ (Orders.settled 5 (Orders.no 4) none).toJson = (Orders.settled 3 (Orders.no 2) none).toJson
    ∧ (Orders.settled 5 (Orders.no 4) none).same (Orders.settled 3 (Orders.no 2) none) = true
    ∧ @Reachable Orders.collide Noon.session
    ∧ (Noon.moment 0 Noon.uncounted).toJson = (Noon.moment 1 Noon.counted).toJson
    ∧ (Noon.moment 0 Noon.uncounted).same (Noon.moment 1 Noon.counted) = false := by
  have hsecond : Orders.filled.Has (Orders.settled 5 (Orders.no 4) none) := .returned List.mem_cons_self
  have hfirst : Orders.filled.Has (Orders.settled 3 (Orders.no 2) none) :=
    .returned (List.mem_cons_of_mem _ List.mem_cons_self)
  have hjson : (Orders.settled 5 (Orders.no 4) none).toJson = (Orders.settled 3 (Orders.no 2) none).toJson := by
    rw [Expr.toJson_eq, Expr.toJson_eq]
    rfl
  have hfilled := @reachable_same_of_toJson_eq Orders.collide _ Orders.filled_reachable _ _ hsecond hfirst
    (Orders.settled_plain 5 4 none) (Orders.settled_plain 3 2 none) hjson
  have hmoments := @reachable_same_of_toJson_eq Orders.collide _ Noon.session_reachable _ _ Noon.has_uncounted
    Noon.has_counted (Noon.moment_plain 0 _) (Noon.moment_plain 1 _) Noon.toJson_eq
  have hregular : ∀ v ∈ (Orders.settled 5 (Orders.no 4) none).values, v.IsRegular :=
    List.forall_mem_singleton.mpr trivial
  have hdifferent : (Noon.moment 0 Noon.uncounted).values ≠ (Noon.moment 1 Noon.counted).values := by decide
  exact ⟨Orders.filled_reachable, rfl, hjson, hfilled.2.2 hregular hregular, Noon.session_reachable, Noon.toJson_eq,
    Bool.eq_false_iff.mpr fun hsame => hdifferent (hmoments.1.mp hsame)⟩

end Session

/-- Not all expressions of one document are equal, even where no user function is called and no float is infinite or a
NaN: a moment with a second among its nanoseconds is written as the moment that counts it. -/
theorem Noon.one_document : ¬ ∀ s, @Session.Reachable Orders.collide s → ∀ a b, s.Has a → s.Has b →
    a.Plain → b.Plain → a.toJson = b.toJson → a.same b = true := by
  intro hall
  have hsame := hall session session_reachable _ _ has_uncounted has_counted (moment_plain 0 _) (moment_plain 1 _)
    toJson_eq
  exact absurd hsame (by decide)

end Columnar
