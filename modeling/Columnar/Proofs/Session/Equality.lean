import Columnar.Proofs.Expr.Alike
import Columnar.Proofs.Session.Invariant

/-!
# `Proofs.Session.Equality` — what it means that two expressions are equal

## Contents
- `Prices.session`: one price written with one and with two places.
- `Sound.same_iff_alike`: what the heap guarantees of two expressions within reach.
- `reachable_same_iff_alike`: the fast equality is equality all the way down, and so an equivalence.
-/

namespace Columnar

/-! ## A session of prices -/

namespace Prices

/-- One and a half, with one place. -/
def short : Decimal := ⟨false, 15, 1, by decide, by decide⟩

/-- One and a half, with two places. -/
def long : Decimal := ⟨false, 150, 2, by decide, by decide⟩

def price (number : Nat) (d : Decimal) : Expr :=
  .node ⟨number⟩ 0 (.literal (.decimal d)) .decimal .scalar none []

/-- A price is written in two ways, and the shorter one is interned. -/
def session : Session where
  supply := ⟨2, 1, 0⟩
  exprs := [price 0 short, price 1 long, price 0 short]
  caches := Function.update (fun _ => {}) 0 ⟨⟨[price 0 short]⟩, [(price 0 short, price 0 short)]⟩

theorem session_reachable : @Session.Reachable Orders.collide session := by
  let _ : Hasher := Orders.collide
  have hshort : Session.Reachable { supply := ⟨1, 1, 0⟩, exprs := [price 0 short] } :=
    .step .start (.construct (.literal (.decimal short)) nofun rfl)
  have hlong : Session.Reachable { supply := ⟨2, 1, 0⟩, exprs := [price 1 long, price 0 short] } :=
    .step hshort (.construct (.literal (.decimal long)) nofun rfl)
  exact .step hlong (.intern 0 (.returned (List.mem_cons_of_mem _ List.mem_cons_self)) rfl)

end Prices

/-! ## Equality -/

namespace Session

/-- Expressions within reach stand on one heap, where equality is equality all the way down. -/
theorem Sound.same_iff_alike [Hasher] {s : Session} {heap : List Expr} (h : s.Sound heap) {a b : Expr}
    (ha : s.Has a) (hb : s.Has b) : a.same b = true ↔ a.Alike b :=
  h.history.same_iff_alike (h.has_mem ha) (h.has_mem hb)

/-- Whatever the hash function: expressions within reach are equal exactly if they are equal all the way down,
in kinds and payloads, types, shapes, given names and operands. So equality is an equivalence on them, and
equal expressions carry the same hash. -/
theorem reachable_same_iff_alike [Hasher] {s : Session} (h : Reachable s) :
    (∀ a b, s.Has a → s.Has b → (a.same b = true ↔ a.Alike b))
      ∧ Equivalence (fun a b : { e : Expr // s.Has e } => a.val.same b.val = true)
      ∧ ∀ a b, s.Has a → s.Has b → a.same b = true → a.hash = b.hash := by
  obtain ⟨heap, hsound⟩ := h.sound
  refine ⟨fun a b ha hb => hsound.same_iff_alike ha hb, ⟨?_, ?_, ?_⟩, ?_⟩
  · intro a
    exact Expr.same_refl a.val
  · intro a b hab
    exact Expr.same_symm hab
  · intro a b c hab hbc
    rw [hsound.same_iff_alike a.property b.property] at hab
    rw [hsound.same_iff_alike b.property c.property] at hbc
    rw [hsound.same_iff_alike a.property c.property]
    exact hab.trans hbc
  · intro a b ha hb hab
    exact hsound.history.hash_eq_of_same (hsound.has_mem ha) (hsound.has_mem hb) hab

/-- Two literals of one number with different places are equal, all the way down. -/
theorem reachable_same_iff_alike_prices : @Reachable Orders.collide Prices.session
    ∧ Prices.session.Has (Prices.price 0 Prices.short)
    ∧ Prices.session.Has (Prices.price 1 Prices.long)
    ∧ (Prices.price 0 Prices.short).same (Prices.price 1 Prices.long) = true
    ∧ (Prices.price 0 Prices.short).Alike (Prices.price 1 Prices.long) :=
  have hshort : Prices.session.Has (Prices.price 0 Prices.short) := .returned List.mem_cons_self
  have hlong : Prices.session.Has (Prices.price 1 Prices.long) :=
    .returned (List.mem_cons_of_mem _ List.mem_cons_self)
  have hsame : (Prices.price 0 Prices.short).same (Prices.price 1 Prices.long) = true := by decide
  ⟨Prices.session_reachable, hshort, hlong, hsame,
    ((@reachable_same_iff_alike Orders.collide _ Prices.session_reachable).1 _ _ hshort hlong).mp hsame⟩

end Session

end Columnar
