import Columnar.Proofs.Expr.Alike
import Columnar.Proofs.Expr.Outcome

/-!
# `Proofs.Expr.Comparison` — two calls side by side

Two calls agree if both succeed with related results or both are refused for one cause; what the messages say may
differ. Calls that are made up of agreeing steps agree, so it is enough to look at the steps. A step that sees the
same data on both sides agrees with itself.

## Contents
- `BuildError.cause`, `Agree`, `Build.Agree`: agreement of checks and of constructions.
- `Agree.bind`, `Agree.forM`, `Agree.mapM`, `Agree.guard`: checks in a row, over a list, and single ones.
- `Build.Agree.bind`, `Build.Agree.check`: constructions in a row, and checks in front of a construction.
-/

namespace Columnar

/-- The cause of a refusal, without what its message needs. -/
def BuildError.cause : BuildError → String
  | typeMismatch .. => "type mismatch"
  | noCommonType .. => "no common type"
  | invalidOperandType .. => "invalid operand type"
  | invalidOperandTypes .. => "invalid operand types"
  | invalidCast .. => "invalid cast"
  | incompatibleLiteral .. => "incompatible literal"
  | argumentCount .. => "argument count"
  | invalidArgument .. => "invalid argument"
  | unknownType .. => "unknown type"
  | duplicateField .. => "duplicate field"
  | fieldNotFound .. => "field not found"
  | foreignField .. => "foreign field"
  | ambiguous .. => "ambiguous"

/-! ## Checks -/

/-- Both succeed, with related results, or both are refused, for one cause. -/
inductive Agree {α β : Type} (R : α → β → Prop) : Except BuildError α → Except BuildError β → Prop
  | ok {a b} : R a b → Agree R (.ok a) (.ok b)
  | error {e f : BuildError} : e.cause = f.cause → Agree R (.error e) (.error f)

namespace Agree

variable {α β γ δ : Type} {R R' : α → β → Prop} {S : γ → δ → Prop}

theorem refl (x : Except BuildError α) : Agree Eq x x := by
  cases x with
  | ok a => exact .ok rfl
  | error e => exact .error rfl

theorem imp {x : Except BuildError α} {y : Except BuildError β} (h : Agree R x y)
    (hR : ∀ a b, R a b → R' a b) : Agree R' x y := by
  cases h with
  | ok hab => exact .ok (hR _ _ hab)
  | error hef => exact .error hef

/-- What follows two checks may use what they have come to. -/
theorem outcome {x : Except BuildError α} {y : Except BuildError β} (h : Agree R x y) :
    Agree (fun a b => R a b ∧ x = .ok a ∧ y = .ok b) x y := by
  cases h with
  | ok hab => exact .ok ⟨hab, rfl, rfl⟩
  | error hef => exact .error hef

theorem bind {x : Except BuildError α} {y : Except BuildError β} {f : α → Except BuildError γ}
    {g : β → Except BuildError δ} (h : Agree R x y) (hfg : ∀ a b, R a b → Agree S (f a) (g b)) :
    Agree S (x >>= f) (y >>= g) := by
  cases h with
  | ok hab => exact hfg _ _ hab
  | error hef => exact .error hef

/-- One demand, on data that meets it on both sides or on neither. -/
theorem guard {p q : Prop} [Decidable p] [Decidable q] {e f : BuildError} (hpq : p ↔ q)
    (hef : e.cause = f.cause) :
    Agree Eq (if p then .ok () else .error e : Except BuildError Unit) (if q then .ok () else .error f) := by
  by_cases hp : p
  · rw [if_pos hp, if_pos (hpq.mp hp)]
    exact .ok rfl
  · rw [if_neg hp, if_neg (mt hpq.mpr hp)]
    exact .error hef

theorem forM {as : List α} {bs : List β} {f : α → Except BuildError Unit} {g : β → Except BuildError Unit}
    (h : List.Forall₂ R as bs) (hfg : ∀ a b, R a b → Agree Eq (f a) (g b)) : Agree Eq (as.forM f) (bs.forM g) := by
  induction h with
  | nil => exact .refl _
  | cons hab _ ih => exact (hfg _ _ hab).bind fun _ _ _ => ih

theorem mapM {as : List α} {bs : List β} {f : α → Except BuildError γ} {g : β → Except BuildError δ}
    (h : List.Forall₂ R as bs) (hfg : ∀ a b, R a b → Agree S (f a) (g b)) :
    Agree (List.Forall₂ S) (as.mapM f) (bs.mapM g) := by
  induction h with
  | nil => exact .ok .nil
  | cons hab _ ih =>
    rw [List.mapM_cons, List.mapM_cons]
    exact (hfg _ _ hab).bind fun _ _ hcd => ih.bind fun _ _ hcds => .ok (.cons hcd hcds)

end Agree

/-! ## Constructions -/

namespace Build

variable {α β γ δ : Type} {R : α → β → Prop} {S : γ → δ → Prop}

/-- Constructions agree from any supplies. -/
def Agree (R : α → β → Prop) (x : Build α) (y : Build β) : Prop :=
  ∀ s t, Columnar.Agree (fun p q => R p.1 q.1) (x s) (y t)

namespace Agree

theorem imp {R' : α → β → Prop} {x : Build α} {y : Build β} (h : Agree R x y) (hR : ∀ a b, R a b → R' a b) :
    Agree R' x y :=
  fun s t => (h s t).imp fun _ _ => hR _ _

theorem bind {x : Build α} {y : Build β} {f : α → Build γ} {g : β → Build δ} (h : Agree R x y)
    (hfg : ∀ a b, R a b → Agree S (f a) (g b)) : Agree S (x >>= f) (y >>= g) :=
  fun s t => (h s t).bind fun p q hpq => hfg p.1 q.1 hpq p.2 q.2

/-- Agreeing checks in front of agreeing constructions. -/
theorem check {x : Except BuildError α} {y : Except BuildError β} {f : α → Build γ} {g : β → Build δ}
    (h : Columnar.Agree R x y) (hfg : ∀ a b, R a b → Agree S (f a) (g b)) :
    Agree S ((liftM x : Build α) >>= f) ((liftM y : Build β) >>= g) := by
  intro s t
  cases h with
  | ok hab => exact hfg _ _ hab s t
  | error hef => exact .error hef

/-- A check of the same data on both sides. -/
theorem same_check (x : Except BuildError α) {f : α → Build γ} {g : α → Build δ} (hfg : ∀ a, Agree S (f a) (g a)) :
    Agree S ((liftM x : Build α) >>= f) ((liftM x : Build α) >>= g) :=
  .check (.refl x) fun a _ hab => hab ▸ hfg a

/-- Results that are always related are so on any condition that holds. -/
theorem iff_of_true {P : Prop} {x : Build α} {y : Build β} (h : Agree R x y) (hP : P) :
    Agree (fun a b => R a b ↔ P) x y :=
  h.imp fun _ _ hab => ⟨fun _ => hP, fun _ => hab⟩

theorem pure {a : α} {b : β} (h : R a b) : Agree R (Pure.pure a) (Pure.pure b) := fun _ _ => .ok h

end Agree

end Build

end Columnar
