import Columnar.Expr.Kind
import Mathlib.Data.List.Forall2
import Mathlib.Algebra.Order.Ring.Int
import Mathlib.Tactic.Ring

/-!
# `Proofs.Expr.Payload` — equality of payloads is an equivalence

Literal values, bins, mappings and whole kinds are compared by an equality of their own: floats by bits,
decimals as numbers, functions by name and identity. Each of these is reflexive, symmetric and transitive,
so what is built on them is an equivalence as well.

## Contents
- `Decimal.sameNumber`, `Value.same`: constants.
- `isEqv_iff_forall₂`: comparison of lists, item by item.
- `Bins.same`, `Mapping.same`, `Kind.same`: the payload of a node.
-/

namespace Columnar

/-! ## Decimals -/

namespace Decimal

theorem sameNumber_iff {a b : Decimal} :
    a.sameNumber b = true ↔ a.mantissa * 10 ^ b.scale = b.mantissa * 10 ^ a.scale := by
  unfold sameNumber
  exact beq_iff_eq

theorem sameNumber_refl (a : Decimal) : a.sameNumber a = true := sameNumber_iff.mpr rfl

theorem sameNumber_symm {a b : Decimal} (h : a.sameNumber b = true) : b.sameNumber a = true :=
  sameNumber_iff.mpr (sameNumber_iff.mp h).symm

/-- Both products are brought to the scale of the decimal in the middle, which then cancels. -/
theorem sameNumber_trans {a b c : Decimal} (hab : a.sameNumber b = true)
    (hbc : b.sameNumber c = true) : a.sameNumber c = true := by
  rw [sameNumber_iff] at hab hbc ⊢
  have hpos : (10 : Int) ^ b.scale ≠ 0 := pow_ne_zero _ (by decide)
  refine mul_right_cancel₀ hpos ?_
  calc a.mantissa * 10 ^ c.scale * 10 ^ b.scale
      = a.mantissa * 10 ^ b.scale * 10 ^ c.scale := by ring
    _ = b.mantissa * 10 ^ c.scale * 10 ^ a.scale := by rw [hab]; ring
    _ = c.mantissa * 10 ^ a.scale * 10 ^ b.scale := by rw [hbc]; ring

end Decimal

/-! ## Constants -/

namespace Value

theorem same_refl (v : Value) : v.same v = true := by
  cases v with
  | decimal d => exact Decimal.sameNumber_refl d
  | boolean b => simp [same]
  | int w n => simp [same]
  | float f x => simp [same]
  | string s => simp [same]
  | datetime t => simp [same]

/-- Equal floats are one float, and equal integers one integer. -/
theorem same_iff {v w : Value} :
    v.same w = true ↔ v = w ∨ ∃ a b, v = decimal a ∧ w = decimal b ∧ a.sameNumber b = true := by
  constructor
  · intro h
    cases v <;> cases w <;> simp only [same, Bool.false_eq_true, Bool.and_eq_true, beq_iff_eq] at h
    case boolean.boolean => exact Or.inl (congrArg boolean h)
    case int.int w m w' n =>
      obtain ⟨hw, hn⟩ := h
      subst hw
      obtain ⟨m, hm⟩ := m
      obtain ⟨n, hn'⟩ := n
      simp only at hn
      subst hn
      exact Or.inl rfl
    case float.float f x g y =>
      obtain ⟨⟨hf, hs⟩, hm⟩ := h
      subst hf
      obtain ⟨s, m, hm'⟩ := x
      obtain ⟨s', m', hm''⟩ := y
      simp only at hs hm
      subst hs; subst hm
      exact Or.inl rfl
    case decimal.decimal a b => exact Or.inr ⟨a, b, rfl, rfl, h⟩
    case string.string => exact Or.inl (congrArg string h)
    case datetime.datetime => exact Or.inl (congrArg datetime h)
  · rintro (rfl | ⟨a, b, rfl, rfl, h⟩)
    · exact same_refl v
    · exact h

theorem same_symm {v w : Value} (h : v.same w = true) : w.same v = true := by
  rw [same_iff] at h ⊢
  rcases h with rfl | ⟨a, b, rfl, rfl, h⟩
  · exact Or.inl rfl
  · exact Or.inr ⟨b, a, rfl, rfl, Decimal.sameNumber_symm h⟩

theorem same_trans {u v w : Value} (huv : u.same v = true) (hvw : v.same w = true) :
    u.same w = true := by
  rw [same_iff] at huv hvw
  rcases huv with rfl | ⟨a, b, rfl, rfl, hab⟩
  · exact same_iff.mpr hvw
  · rcases hvw with rfl | ⟨b', c, hb, rfl, hbc⟩
    · exact same_iff.mpr (Or.inr ⟨a, b, rfl, rfl, hab⟩)
    · cases hb
      exact same_iff.mpr (Or.inr ⟨a, c, rfl, rfl, Decimal.sameNumber_trans hab hbc⟩)

end Value

/-! ## Lists, item by item -/

section Lists

variable {α : Type} {r : α → α → Bool}

theorem isEqv_iff_forall₂ {as bs : List α} :
    as.isEqv bs r = true ↔ List.Forall₂ (fun a b => r a b = true) as bs := by
  induction as generalizing bs with
  | nil => cases bs <;> simp
  | cons a as ih => cases bs <;> simp [List.isEqv_cons_cons, ih]

/-- A relation between lists may be exchanged for one that it implies for their items. -/
theorem forall₂_imp_of_mem {β : Type} {R S : α → β → Prop} {as : List α} {bs : List β}
    (h : List.Forall₂ R as bs) (hRS : ∀ a ∈ as, ∀ b ∈ bs, R a b → S a b) :
    List.Forall₂ S as bs := by
  induction h with
  | nil => exact .nil
  | cons hab _ ih =>
    refine .cons (hRS _ List.mem_cons_self _ List.mem_cons_self hab) (ih ?_)
    intro a ha b hb
    exact hRS a (List.mem_cons_of_mem _ ha) b (List.mem_cons_of_mem _ hb)

/-- What related items share, related lists share item by item. -/
theorem map_eq_of_forall₂ {β γ : Type} {R : α → β → Prop} {f : α → γ} {g : β → γ} {as : List α}
    {bs : List β} (h : List.Forall₂ R as bs) (hfg : ∀ a ∈ as, ∀ b ∈ bs, R a b → f a = g b) :
    as.map f = bs.map g := by
  rw [← List.forall₂_eq_eq_eq, List.forall₂_map_left_iff, List.forall₂_map_right_iff]
  exact forall₂_imp_of_mem h hfg

/-- Two functions tell the same related lists apart if they do so for related items. -/
theorem map_eq_iff_of_forall₂ {β γ : Type} {R : α → α → Prop} {f : α → β} {g : α → γ} {as bs : List α}
    (h : List.Forall₂ R as bs) (hfg : ∀ a ∈ as, ∀ b ∈ bs, R a b → (f a = f b ↔ g a = g b)) :
    as.map f = bs.map f ↔ as.map g = bs.map g := by
  induction h with
  | nil => exact iff_of_true rfl rfl
  | cons hab _ ih =>
    have hhead := hfg _ List.mem_cons_self _ List.mem_cons_self hab
    have htail := ih fun a ha b hb => hfg a (List.mem_cons_of_mem _ ha) b (List.mem_cons_of_mem _ hb)
    simp only [List.map_cons, List.cons.injEq, hhead, htail]

/-- A function that does not tell two lists of related items apart does not tell these items apart. -/
theorem forall₂_and_of_map_eq {β : Type} {R : α → α → Prop} {f : α → β} {as bs : List α}
    (h : List.Forall₂ R as bs) (hf : as.map f = bs.map f) :
    List.Forall₂ (fun a b => R a b ∧ f a = f b) as bs := by
  induction h with
  | nil => exact .nil
  | cons hab _ ih =>
    obtain ⟨hhead, htail⟩ := List.cons.inj hf
    exact .cons ⟨hab, hhead⟩ (ih htail)

/-- Every item of the second list stands beside one of the first. -/
theorem exists_of_forall₂ {β : Type} {R : α → β → Prop} {as : List α} {bs : List β}
    (h : List.Forall₂ R as bs) {b : β} (hb : b ∈ bs) : ∃ a ∈ as, R a b := by
  induction h with
  | nil => cases hb
  | @cons a b' as bs hab _ ih =>
    rcases List.mem_cons.mp hb with rfl | hb
    · exact ⟨a, List.mem_cons_self, hab⟩
    · obtain ⟨a', ha', hR⟩ := ih hb
      exact ⟨a', List.mem_cons_of_mem _ ha', hR⟩

/-- Items can be found beside the items of a list if one can be found beside each. -/
theorem exists_forall₂_iff {β : Type} {R : α → β → Prop} {as : List α} :
    (∃ bs, List.Forall₂ R as bs) ↔ ∀ a ∈ as, ∃ b, R a b := by
  induction as with
  | nil => exact iff_of_true ⟨[], .nil⟩ nofun
  | cons a as ih =>
    rw [List.forall_mem_cons, ← ih]
    constructor
    · rintro ⟨_, h⟩
      cases h with
      | cons hab hrest => exact ⟨⟨_, hab⟩, _, hrest⟩
    · rintro ⟨⟨_, hab⟩, _, hrest⟩
      exact ⟨_, .cons hab hrest⟩

/-- The items at one place are related. -/
theorem getElem?_of_forall₂ {β : Type} {R : α → β → Prop} {as : List α} {bs : List β}
    (h : List.Forall₂ R as bs) {i : Nat} {a : α} (ha : as[i]? = some a) :
    ∃ b, bs[i]? = some b ∧ R a b := by
  induction h generalizing i with
  | nil => cases ha
  | @cons a' b as bs hab _ ih =>
    cases i with
    | zero =>
      cases ha
      exact ⟨b, rfl, hab⟩
    | succ i => exact ih ha

/-- Two relations in a row make a third, if they do so for the items. -/
theorem forall₂_trans_of_mem {R S T : α → α → Prop} {as bs cs : List α}
    (hR : List.Forall₂ R as bs) (hS : List.Forall₂ S bs cs)
    (hT : ∀ a ∈ as, ∀ b ∈ bs, ∀ c ∈ cs, R a b → S b c → T a c) : List.Forall₂ T as cs := by
  induction hR generalizing cs with
  | nil => cases hS; exact .nil
  | cons hab _ ih =>
    cases hS with
    | cons hbc hS =>
      refine .cons (hT _ List.mem_cons_self _ List.mem_cons_self _ List.mem_cons_self hab hbc)
        (ih hS ?_)
      intro a ha b hb c hc
      exact hT a (List.mem_cons_of_mem _ ha) b (List.mem_cons_of_mem _ hb) c
        (List.mem_cons_of_mem _ hc)

theorem isEqv_refl (hr : ∀ a, r a a = true) (as : List α) : as.isEqv as r = true :=
  isEqv_iff_forall₂.mpr (List.forall₂_same.mpr fun a _ => hr a)

theorem isEqv_symm (hr : ∀ a b, r a b = true → r b a = true) {as bs : List α}
    (h : as.isEqv bs r = true) : bs.isEqv as r = true := by
  rw [isEqv_iff_forall₂] at h ⊢
  exact (h.imp hr).flip

theorem isEqv_trans (hr : ∀ a b c, r a b = true → r b c = true → r a c = true)
    {as bs cs : List α} (hab : as.isEqv bs r = true) (hbc : bs.isEqv cs r = true) :
    as.isEqv cs r = true := by
  rw [isEqv_iff_forall₂] at hab hbc ⊢
  exact forall₂_trans_of_mem hab hbc fun a _ b _ c _ => hr a b c

end Lists

/-! ## Payloads -/

theorem Bins.same_iff {a b : Bins} :
    a.same b = true ↔ a.edges.isEqv b.edges Value.same = true ∧ a.labels = b.labels
      ∧ a.right = b.right ∧ a.includeLowest = b.includeLowest
      ∧ a.includeUnder = b.includeUnder ∧ a.includeOver = b.includeOver := by
  simp only [same, Bool.and_eq_true, beq_iff_eq, and_assoc]

theorem Bins.same_refl (b : Bins) : b.same b = true :=
  same_iff.mpr ⟨isEqv_refl Value.same_refl _, rfl, rfl, rfl, rfl, rfl⟩

theorem Bins.same_symm {a b : Bins} (h : a.same b = true) : b.same a = true := by
  obtain ⟨he, hl, hr, hi, hu, ho⟩ := same_iff.mp h
  have hedges := isEqv_symm (fun _ _ => Value.same_symm) he
  exact same_iff.mpr ⟨hedges, hl.symm, hr.symm, hi.symm, hu.symm, ho.symm⟩

theorem Bins.same_trans {a b c : Bins} (hab : a.same b = true) (hbc : b.same c = true) :
    a.same c = true := by
  obtain ⟨he, hl, hr, hi, hu, ho⟩ := same_iff.mp hab
  obtain ⟨he', hl', hr', hi', hu', ho'⟩ := same_iff.mp hbc
  have hedges := isEqv_trans (r := Value.same) (fun _ _ _ => Value.same_trans) he he'
  exact same_iff.mpr
    ⟨hedges, hl.trans hl', hr.trans hr', hi.trans hi', hu.trans hu', ho.trans ho'⟩

theorem Mapping.same_iff {a b : Mapping} :
    a.same b = true ↔ a.function.name = b.function.name ∧ a.function.id = b.function.id
      ∧ a.axis = b.axis ∧ a.outputIndex = b.outputIndex := by
  simp only [same, MapFunction.same, Bool.and_eq_true, beq_iff_eq, and_assoc]

theorem Mapping.same_refl (m : Mapping) : m.same m = true := same_iff.mpr ⟨rfl, rfl, rfl, rfl⟩

theorem Mapping.same_symm {a b : Mapping} (h : a.same b = true) : b.same a = true := by
  obtain ⟨hn, hi, ha, ho⟩ := same_iff.mp h
  exact same_iff.mpr ⟨hn.symm, hi.symm, ha.symm, ho.symm⟩

theorem Mapping.same_trans {a b c : Mapping} (hab : a.same b = true) (hbc : b.same c = true) :
    a.same c = true := by
  obtain ⟨hn, hi, ha, ho⟩ := same_iff.mp hab
  obtain ⟨hn', hi', ha', ho'⟩ := same_iff.mp hbc
  exact same_iff.mpr ⟨hn.trans hn', hi.trans hi', ha.trans ha', ho.trans ho'⟩

/-! ## Kinds -/

namespace Kind

/-- Equal kinds are one kind, except for the payloads that have an equality of their own. -/
theorem same_iff {k l : Kind} :
    k.same l = true ↔ k = l ∨ (∃ v w, k = literal v ∧ l = literal w ∧ v.same w = true)
      ∨ (∃ a b, k = cut a ∧ l = cut b ∧ a.same b = true)
      ∨ ∃ m n, k = map m ∧ l = map n ∧ m.same n = true := by
  constructor
  · intro h
    cases k <;> cases l <;> simp only [same, Bool.false_eq_true, Bool.and_eq_true, beq_iff_eq] at h
    case literal.literal v w => exact Or.inr (Or.inl ⟨v, w, rfl, rfl, h⟩)
    case cut.cut a b => exact Or.inr (Or.inr (Or.inl ⟨a, b, rfl, rfl, h⟩))
    case map.map m n => exact Or.inr (Or.inr (Or.inr ⟨m, n, rfl, rfl, h⟩))
    all_goals simp [h]
  · rintro (rfl | ⟨v, w, rfl, rfl, h⟩ | ⟨a, b, rfl, rfl, h⟩ | ⟨m, n, rfl, rfl, h⟩)
    · cases k <;> simp [same, Value.same_refl, Bins.same_refl, Mapping.same_refl]
    · exact h
    · exact h
    · exact h

theorem same_refl (k : Kind) : k.same k = true := same_iff.mpr (Or.inl rfl)

theorem same_symm {k l : Kind} (h : k.same l = true) : l.same k = true := by
  rw [same_iff] at h ⊢
  rcases h with rfl | ⟨v, w, rfl, rfl, h⟩ | ⟨a, b, rfl, rfl, h⟩ | ⟨m, n, rfl, rfl, h⟩
  · exact Or.inl rfl
  · exact Or.inr (Or.inl ⟨w, v, rfl, rfl, Value.same_symm h⟩)
  · exact Or.inr (Or.inr (Or.inl ⟨b, a, rfl, rfl, Bins.same_symm h⟩))
  · exact Or.inr (Or.inr (Or.inr ⟨n, m, rfl, rfl, Mapping.same_symm h⟩))

theorem same_trans {k l m : Kind} (hkl : k.same l = true) (hlm : l.same m = true) :
    k.same m = true := by
  rcases same_iff.mp hkl with rfl | ⟨v, w, rfl, rfl, h⟩ | ⟨a, b, rfl, rfl, h⟩ | ⟨f, g, rfl, rfl, h⟩
  · exact hlm
  · cases m <;> simp only [same, Bool.false_eq_true] at hlm
    exact Value.same_trans h hlm
  · cases m <;> simp only [same, Bool.false_eq_true] at hlm
    exact Bins.same_trans h hlm
  · cases m <;> simp only [same, Bool.false_eq_true] at hlm
    exact Mapping.same_trans h hlm

end Kind

end Columnar
