import Columnar.Proofs.Expr.Congruence
import Columnar.Proofs.Session.Equality

/-!
# `Proofs.Session.Congruence` — calls on equal arguments

A call that is made again on equal arguments is refused again or returns an equal expression, unless it looks at
decimals more closely than equality does. Only two calls do: a decimal that fills missing values may be converted
to a double, and decimals among edges are compared as doubles and written into labels.

## Contents
- `Construction.Related`: one call on arguments that are equal, pair by pair.
- `Construction.ordered`, `Construction.Congruent`, `Construction.decimals`: what the two exceptions depend on.
- `reachable_construct_congruent`: when calls on equal arguments have equal outcomes.
- `Prices.binned_differently`: edges that are equal and have different bins.
-/

namespace Columnar

namespace Construction

/-! ## Equal arguments -/

/-- One call on two lists of arguments. The expressions are related pair by pair, the values are equal, and the
rest is the same. -/
inductive Related (E : Expr → Expr → Prop) : Construction → Construction → Prop
  | literal {v w : Value} : v.same w = true → Related E (literal v) (literal w)
  | rename {a b} (name) : E a b → Related E (rename a name) (rename b name)
  | binary {a b x y} (op) : E a b → E x y → Related E (binary a op x) (binary b op y)
  | unary {a b} (op) : E a b → Related E (unary a op) (unary b op)
  | reduce {a b} (op) : E a b → Related E (reduce a op) (reduce b op)
  | cast {a b} (target) : E a b → Related E (cast a target) (cast b target)
  | isNull {a b} : E a b → Related E (isNull a) (isNull b)
  | notNull {a b} : E a b → Related E (notNull a) (notNull b)
  | fillMissing {a b x y} : E a b → E x y → Related E (fillMissing a x) (fillMissing b y)
  | membership {a b xs ys} (negated) : E a b → List.Forall₂ E xs ys →
      Related E (membership a negated xs) (membership b negated ys)
  | between {a b x y z w} (inclusive) : E a b → E x y → E z w →
      Related E (between a x z inclusive) (between b y w inclusive)
  | conditional {a b x y z w} : E a b → E x y → E z w → Related E (conditional a x z) (conditional b y w)
  | switch {a b cases cases'} : E a b → Cases.Related E cases cases' →
      Related E (switch a cases) (switch b cases')
  | cut {a b} {edges edges' : List Value} (o) : E a b → List.Forall₂ (fun v w => v.same w = true) edges edges' →
      Related E (cut a edges o) (cut b edges' o)

/-- Whether the edges are in ascending order, in a call that has edges. -/
def ordered : Construction → Bool
  | cut _ edges _ => Expr.ascending (Expr.bounds edges)
  | _ => true

/-- The calls make the same of their values, where this is not what they are given: literals that fill are
converted to the same double, if to a double at all, and labels are written from the same edges, if they are
written at all. -/
def Congruent : Construction → Construction → Prop
  | fillMissing e x, fillMissing _ y =>
    e.type = .float .double → x.literalAs (.float .double) = y.literalAs (.float .double)
  | cut _ edges o, cut _ edges' _ => o.labels = none → edges = edges'
  | _, _ => True

/-- The values that a call does more with than to keep them. -/
def used : Construction → List Value
  | fillMissing _ value => value.kind.literal?.toList
  | cut _ edges _ => edges
  | _ => []

/-- The decimals that a call does more with than to keep them. -/
def decimals (k : Construction) : List Decimal := k.used.filterMap Value.decimal?

namespace Related

variable {E E' : Expr → Expr → Prop} {k l : Construction}

theorem imp (h : k.Related E l) (hE : ∀ x y, E x y → E' x y) : k.Related E' l := by
  cases h with
  | literal hvw => exact .literal hvw
  | rename name h => exact .rename name (hE _ _ h)
  | binary op h hxy => exact .binary op (hE _ _ h) (hE _ _ hxy)
  | unary op h => exact .unary op (hE _ _ h)
  | reduce op h => exact .reduce op (hE _ _ h)
  | cast target h => exact .cast target (hE _ _ h)
  | isNull h => exact .isNull (hE _ _ h)
  | notNull h => exact .notNull (hE _ _ h)
  | fillMissing h hxy => exact .fillMissing (hE _ _ h) (hE _ _ hxy)
  | membership negated h hxs => exact .membership negated (hE _ _ h) (hxs.imp hE)
  | between inclusive h hxy hzw => exact .between inclusive (hE _ _ h) (hE _ _ hxy) (hE _ _ hzw)
  | conditional h hxy hzw => exact .conditional (hE _ _ h) (hE _ _ hxy) (hE _ _ hzw)
  | switch h hcases => exact .switch (hE _ _ h) (hcases.imp hE)
  | cut o h hedges => exact .cut o (hE _ _ h) hedges

/-- Calls that use the same decimals agree in what they make of them. -/
theorem congruent_of_decimals (h : k.Related Expr.Alike l) (hdecimals : k.decimals = l.decimals) :
    k.ordered = l.ordered ∧ k.Congruent l := by
  have hused : List.Forall₂ Value.Alike k.used l.used := by
    cases h with
    | fillMissing _ hxy => exact forall₂_toList hxy.kind.literal?
    | cut _ _ hedges => exact hedges.imp fun _ _ => Value.same_iff_alike.mp
    | _ => exact .nil
  have hused := (filterMap_decimal?_eq_iff hused).mp hdecimals
  cases h with
  | @fillMissing _ _ x y _ _ =>
    have hliteral : x.kind.literal? = y.kind.literal? := by
      rw [← Option.head?_toList (o := x.kind.literal?), ← Option.head?_toList (o := y.kind.literal?)]
      exact congrArg List.head? hused
    refine ⟨rfl, fun _ => ?_⟩
    unfold Expr.literalAs
    rw [hliteral]
  | cut o _ _ => exact ⟨congrArg (Expr.ascending ∘ Expr.bounds) hused, fun _ => hused⟩
  | _ => exact ⟨rfl, trivial⟩

/-- Calls on equal arguments are refused together or succeed together. -/
theorem build_agree [Hasher] (h : k.Related Expr.Alike l) (hordered : k.ordered = l.ordered) :
    Build.Agree (fun a b => a.Alike b ↔ k.Congruent l) k.build l.build := by
  cases h with
  | literal hvw => exact (Expr.literal_agree (Value.same_iff_alike.mp hvw)).iff_of_true trivial
  | rename name h => exact (h.rename_agree name).iff_of_true trivial
  | binary op h hxy => exact (h.binary_agree op hxy).iff_of_true trivial
  | unary op h => exact (h.unary_agree op).iff_of_true trivial
  | reduce op h => exact (h.reduce_agree op).iff_of_true trivial
  | cast target h => exact (h.cast_agree target).iff_of_true trivial
  | isNull h => exact (h.nullTest_agree _).iff_of_true trivial
  | notNull h => exact (h.nullTest_agree _).iff_of_true trivial
  | fillMissing h hxy => exact h.fillMissing_agree hxy
  | membership negated h hxs => exact (h.membership_agree negated hxs).iff_of_true trivial
  | between inclusive h hxy hzw => exact (h.between_agree inclusive hxy hzw).iff_of_true trivial
  | conditional h hxy hzw => exact (h.conditional_agree hxy hzw).iff_of_true trivial
  | switch h hcases => exact (Expr.switchOn_agree (.some h) hcases).iff_of_true trivial
  | cut o h hedges =>
    exact Expr.Alike.cut_agree (hedges.imp fun _ _ => Value.same_iff_alike.mp) h hordered

end Related

/-- A call that succeeds has its edges in order. -/
theorem ordered_of_build_eq_ok [Hasher] {k : Construction} {s : Supply} {r : Expr × Supply} (h : k.build s = .ok r) :
    k.ordered = true := by
  cases k with
  | cut e edges o =>
    obtain ⟨_, bins, hbins, _⟩ := Expr.cut_eq_ok.mp h
    exact Expr.ascending_of_makeBins_eq_ok hbins
  | _ => rfl

end Construction

/-! ## Prices between two edges -/

namespace Prices

def high : Decimal := { short with coefficient := 25, coefficient_lt := by decide }

/-- A number with one place. -/
def few : Decimal := { short with coefficient := 442135727, coefficient_lt := by decide }

/-- The same number with eight places. It converts to the next double. -/
def many : Decimal := ⟨false, 4421357270000000, 8, by decide, by decide⟩

/-- A price sorted into the bin between two edges. -/
def binned (lower : Decimal) (upper : Value) (labels : Option (List String)) : Construction :=
  .cut (price 0 short) [.decimal lower, upper] { labels }

/-- A bin with a label of its own. -/
def labelled (lower : Decimal) : Construction := binned lower (.decimal high) (some ["middle"])

theorem binned_related {a b : Decimal} (h : a.sameNumber b = true) (upper : Value) (labels : Option (List String)) :
    (binned a upper labels).Related (fun x y => session.Has x ∧ session.Has y ∧ x.same y = true)
      (binned b upper labels) := by
  have hprice : session.Has (price 0 short) := .returned List.mem_cons_self
  exact .cut _ ⟨hprice, hprice, Expr.same_refl _⟩ (.cons h (.cons (Value.same_refl upper) .nil))

end Prices

/-! ## Calls on equal arguments -/

namespace Session

/-- In every reachable session, let one call be made on two lists of equal arguments. If the edges are in order in
both lists or in neither, both calls succeed or both are refused for one cause. Where both succeed, the results are
equal exactly if the calls are congruent. And if the decimals that fill or are edges are the same in both lists,
the calls succeed with equal results or are refused for one cause. -/
theorem reachable_construct_congruent [Hasher] {s : Session} (h : Reachable s) {k l : Construction}
    (hkl : k.Related (fun a b => s.Has a ∧ s.Has b ∧ a.same b = true) l) :
    (k.ordered = l.ordered → Build.Agree (fun a b => a.Alike b ↔ k.Congruent l) k.build l.build)
      ∧ (∀ s', Reachable s' → ∀ a b, s'.Has a → s'.Has b → ∀ t t' u u', k.build t = .ok (a, t') →
          l.build u = .ok (b, u') → (a.same b = true ↔ k.Congruent l))
      ∧ (k.decimals = l.decimals → Build.Agree Expr.Alike k.build l.build) := by
  obtain ⟨heap, hsound⟩ := h.sound
  have hrelated : k.Related Expr.Alike l :=
    hkl.imp fun _ _ ⟨hx, hy, hxy⟩ => (hsound.same_iff_alike hx hy).mp hxy
  refine ⟨hrelated.build_agree, ?_, ?_⟩
  · intro s' hs' a b ha hb t t' u u' hkt hlu
    obtain ⟨heap', hsound'⟩ := hs'.sound
    have hordered : k.ordered = l.ordered :=
      (Construction.ordered_of_build_eq_ok hkt).trans (Construction.ordered_of_build_eq_ok hlu).symm
    have hagree := hrelated.build_agree hordered t u
    rw [hkt, hlu] at hagree
    rw [hsound'.same_iff_alike ha hb]
    cases hagree with
    | ok hab => exact hab
  · intro hdecimals
    obtain ⟨hordered, hcongruent⟩ := hrelated.congruent_of_decimals hdecimals
    exact (hrelated.build_agree hordered).imp fun _ _ hab => hab.mpr hcongruent

/-- Whatever their places, equal edges in ascending order have equal bins if a label is given. -/
theorem reachable_construct_congruent_prices : @Reachable Orders.collide Prices.session
    ∧ (Prices.labelled Prices.short).Related
        (fun a b => Prices.session.Has a ∧ Prices.session.Has b ∧ a.same b = true) (Prices.labelled Prices.long)
    ∧ (Prices.labelled Prices.short).ordered = (Prices.labelled Prices.long).ordered
    ∧ Build.Agree Expr.Alike (@Construction.build Orders.collide (Prices.labelled Prices.short))
        (@Construction.build Orders.collide (Prices.labelled Prices.long)) := by
  have hrelated := Prices.binned_related (a := Prices.short) (b := Prices.long) rfl (.decimal Prices.high)
    (some ["middle"])
  have hordered : (Prices.labelled Prices.short).ordered = (Prices.labelled Prices.long).ordered := by
    decide +kernel
  have hagree := (@reachable_construct_congruent Orders.collide _ Prices.session_reachable _ _ hrelated).1 hordered
  exact ⟨Prices.session_reachable, hrelated, hordered, hagree.imp fun _ _ hab => hab.mpr nofun⟩

end Session

/-- Not all calls on equal arguments have equal outcomes. The label of a bin shows the places of its edges; and of
two equal decimals, one can be less than a double, and the other not. -/
theorem Prices.binned_differently :
    ¬ (∀ s, @Session.Reachable Orders.collide s → ∀ k l : Construction,
        k.Related (fun a b => s.Has a ∧ s.Has b ∧ a.same b = true) l →
        Build.Agree Expr.Alike (@Construction.build Orders.collide k) (@Construction.build Orders.collide l))
      ∧ ¬ ∀ s, @Session.Reachable Orders.collide s → ∀ k l : Construction,
        k.Related (fun a b => s.Has a ∧ s.Has b ∧ a.same b = true) l →
        Build.Agree (fun _ _ => True) (@Construction.build Orders.collide k)
          (@Construction.build Orders.collide l) := by
  let _ : Hasher := Orders.collide
  constructor
  · intro hall
    have hbins : ∀ d ∈ [short, long], Expr.makeBins ⟨"cut"⟩ [.decimal d, .decimal high] {}
        = .ok ⟨[.decimal d, .decimal high], ["(" ++ d.text ++ ", 2.5]"], true, false, false, false⟩ := by
      decide +kernel
    have hshort : (binned short (.decimal high) none).build {} = .ok _ :=
      Expr.cut_eq_ok.mpr ⟨rfl, _, hbins short List.mem_cons_self, rfl⟩
    have hlong : (binned long (.decimal high) none).build {} = .ok _ :=
      Expr.cut_eq_ok.mpr ⟨rfl, _, hbins long (List.mem_cons_of_mem _ List.mem_cons_self), rfl⟩
    have hagree := hall session session_reachable _ _
      (binned_related (a := short) (b := long) rfl (.decimal high) none) {} {}
    rw [hshort, hlong] at hagree
    cases hagree with
    | ok hab =>
      have hlabels := (Kind.alike_cut_iff.mp hab.kind).labels
      revert hlabels
      decide
  · intro hall
    have hbins : Expr.makeBins ⟨"cut"⟩ [.decimal few, .float .double many.toDouble] {} = .ok ⟨[.decimal few,
        .float .double many.toDouble], ["(44213572.7, 44213572.70000001]"], true, false, false, false⟩ := by
      decide +kernel
    have hfew : (binned few (.float .double many.toDouble) none).build {} = .ok _ :=
      Expr.cut_eq_ok.mpr ⟨rfl, _, hbins, rfl⟩
    have hmany : (binned many (.float .double many.toDouble) none).ordered = false := by decide +kernel
    have hagree := hall session session_reachable _ _
      (binned_related (a := few) (b := many) (by decide) (.float .double many.toDouble) none) {} {}
    rw [hfew] at hagree
    cases hsucceeds : (binned many (.float .double many.toDouble) none).build {} with
    | ok r =>
      rw [Construction.ordered_of_build_eq_ok hsucceeds] at hmany
      cases hmany
    | error e =>
      rw [hsucceeds] at hagree
      cases hagree

end Columnar
