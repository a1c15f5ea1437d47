import Columnar.Expr.Cut
import Columnar.Expr.Switch
import Columnar.Proofs.Expr.Checker
import Columnar.Proofs.Expr.Typing

/-!
# `Proofs.Expr.Outcome` — when constructions succeed, and what they make

For each construction one equivalence: it succeeds from a supply exactly under a condition on its arguments,
and then makes exactly one node out of the next identity. (Filling makes one more, for a literal that it
converts; a cast to the type that is already there makes none.)

## Contents
- `Build.bind_eq_ok`, `Build.check_eq`, `Build.check_eq_error`, `Build.node_eq_ok`: constructions in general.
- `Build.Makes`: constructions that always succeed.
- one `_eq_ok` lemma for each construction of `Expr`.
-/

namespace Columnar

/-! ## Constructions in general -/

namespace Build

variable {α β : Type} {s : Supply}

theorem bind_eq_ok {m : Build α} {f : α → Build β} {r : β × Supply} :
    (m >>= f) s = .ok r ↔ ∃ a s', m s = .ok (a, s') ∧ f a s' = .ok r := by
  show (m s >>= fun p => f p.1 p.2) = .ok r ↔ _
  rw [except_bind_eq_ok]
  exact ⟨fun ⟨p, hp, h⟩ => ⟨p.1, p.2, hp, h⟩, fun ⟨a, s', hp, h⟩ => ⟨(a, s'), hp, h⟩⟩

/-- A check in front of a construction leaves the supply alone. -/
theorem check_eq {x : Except BuildError α} {f : α → Build β} :
    ((liftM x : Build α) >>= f) s = x >>= fun a => f a s := by
  cases x <;> rfl

theorem check_eq_ok {x : Except BuildError α} {f : α → Build β} {r : β × Supply} :
    ((liftM x : Build α) >>= f) s = .ok r ↔ ∃ a, x = .ok a ∧ f a s = .ok r := by
  rw [check_eq, except_bind_eq_ok]

theorem check_eq_error {x : Except BuildError α} {f : α → Build β} {err : BuildError} :
    ((liftM x : Build α) >>= f) s = .error err ↔ x = .error err ∨ ∃ a, x = .ok a ∧ f a s = .error err := by
  rw [check_eq, except_bind_eq_error]

theorem pure_eq_ok {a : α} {r : α × Supply} : (pure a : Build α) s = .ok r ↔ r = (a, s) := by
  show Except.ok (a, s) = .ok r ↔ _
  rw [Except.ok.injEq, eq_comm]

theorem map_eq_ok {m : Build α} {f : α → β} {r : β × Supply} :
    (f <$> m) s = .ok r ↔ ∃ a s', m s = .ok (a, s') ∧ r = (f a, s') := by
  rw [map_eq_pure_bind, bind_eq_ok]
  simp only [pure_eq_ok]

theorem map_eq_error {m : Build α} {f : α → β} {err : BuildError} : (f <$> m) s = .error err ↔ m s = .error err := by
  rw [map_eq_pure_bind]
  show (m s >>= fun p => .ok (f p.1, p.2)) = .error err ↔ _
  rw [except_bind_eq_error]
  exact or_iff_left fun ⟨_, _, h⟩ => nomatch h

theorem node_eq_ok [Hasher] {k : Kind} {t : ElementType} {sh : Shape} {os : List Expr}
    {r : Expr × Supply} : node k t sh os s = .ok r ↔ r = s.node k t sh none os := by
  show Except.ok _ = .ok r ↔ _
  rw [Except.ok.injEq, eq_comm]

/-! ### Constructions that always succeed -/

/-- A construction succeeds from every supply, and makes what is as demanded. -/
def Makes (m : Build α) (Q : α → Prop) : Prop := ∀ s, ∃ r, m s = .ok r ∧ Q r.1

variable {m : Build α} {P Q : α → Prop}

theorem Makes.of_eq_ok (h : m.Makes Q) {r : α × Supply} (hr : m s = .ok r) : Q r.1 := by
  obtain ⟨r', hr', hq⟩ := h s
  rw [hr] at hr'
  cases hr'
  exact hq

theorem Makes.pure {a : α} (h : Q a) : (pure a : Build α).Makes Q := fun s => ⟨(a, s), rfl, h⟩

theorem Makes.imp (h : m.Makes P) (himp : ∀ a, P a → Q a) : m.Makes Q := by
  intro s
  obtain ⟨r, hr, hp⟩ := h s
  exact ⟨r, hr, himp _ hp⟩

theorem Makes.bind {f : α → Build β} {R : β → Prop} (hm : m.Makes Q) (hf : ∀ a, Q a → (f a).Makes R) :
    (m >>= f).Makes R := by
  intro s
  obtain ⟨⟨a, s'⟩, ha, hq⟩ := hm s
  obtain ⟨r, hr, h⟩ := hf a hq s'
  exact ⟨r, bind_eq_ok.mpr ⟨a, s', ha, hr⟩, h⟩

theorem Makes.map {f : α → β} {R : β → Prop} (hm : m.Makes fun a => R (f a)) : (f <$> m).Makes R := by
  rw [map_eq_pure_bind]
  exact hm.bind fun a h => .pure h

/-- A check that is passed makes no difference. -/
theorem Makes.check {x : Except BuildError α} {f : α → Build β} {R : β → Prop} {a : α} (hx : x = .ok a)
    (hf : (f a).Makes R) : ((liftM x : Build α) >>= f).Makes R := by
  intro s
  obtain ⟨r, hr, h⟩ := hf s
  exact ⟨r, check_eq_ok.mpr ⟨a, hx, hr⟩, h⟩

theorem Makes.expectCount {c : Checker} {ok : Bool} {expected : String} {actual : Nat} {f : Unit → Build β}
    {R : β → Prop} (hok : ok = true) (hf : (f ()).Makes R) :
    ((liftM (c.expectCount ok expected actual) : Build Unit) >>= f).Makes R :=
  .check (Checker.expectCount_eq_ok.mpr hok) hf

/-- Constructions one after the other, for every item of a list. -/
theorem Makes.mapM {f : α → Build β} {R : α → β → Prop} {items : List α} (hf : ∀ a, (f a).Makes (R a)) :
    (items.mapM f).Makes (List.Forall₂ R items) := by
  induction items with
  | nil =>
    rw [List.mapM_nil]
    exact .pure .nil
  | cons a items ih =>
    rw [List.mapM_cons]
    exact (hf a).bind fun b hb => ih.bind fun bs hbs => .pure (.cons hb hbs)

end Build

namespace Expr

variable [Hasher] {e : Expr} {s : Supply} {r : Expr × Supply}

/-! ## Leaves and names -/

theorem literal_eq_ok {v : Value} :
    literal v s = .ok r ↔ r = s.node (.literal v) v.type .scalar none [] :=
  Build.node_eq_ok

theorem rename_eq_ok {name : String} :
    e.rename name s = .ok r ↔ r = s.node e.kind e.type e.shape (some name) e.operands := by
  show Except.ok _ = .ok r ↔ _
  rw [Except.ok.injEq, eq_comm]

/-! ## Operators -/

theorem binary_eq_ok {op : BinaryOperator} {rhs : Expr} :
    e.binary op rhs s = .ok r ↔ ∃ t, op.output e.type rhs.type = some t
      ∧ r = s.node (.binary op) t (.combine [e.shape, rhs.shape]) none [e, rhs] := by
  unfold binary
  simp only [Build.check_eq_ok, Checker.binaryOutput_eq_ok, Build.node_eq_ok]

theorem unary_eq_ok {op : UnaryOperator} :
    e.unary op s = .ok r ↔
      ∃ t, op.output e.type = some t ∧ r = s.node (.unary op) t e.shape none [e] := by
  unfold unary
  simp only [Build.check_eq_ok, Checker.unaryOutput_eq_ok, Build.node_eq_ok]

theorem reduce_eq_ok {op : Reduction} :
    e.reduce op s = .ok r ↔
      ∃ t, op.output e.type = some t ∧ r = s.node (.reduce op) t .scalar none [e] := by
  unfold reduce
  simp only [Build.check_eq_ok, Checker.unaryOutput_eq_ok, Build.node_eq_ok]

theorem cast_eq_ok {target : ElementType} :
    e.cast target s = .ok r ↔ (target = e.type ∧ r = (e, s))
      ∨ (target ≠ e.type ∧ e.type.canCastTo target = true
        ∧ r = s.node .cast target e.shape none [e]) := by
  unfold cast
  by_cases h : target = e.type
  · rw [if_pos h, Build.pure_eq_ok]
    simp [h]
  · rw [if_neg h, Build.check_eq_ok]
    simp [h, Checker.checkCast_eq_ok, Build.node_eq_ok]

/-! ## Missing values -/

theorem nullTest_eq_ok {op : UnaryOperator} :
    e.nullTest op s = .ok r ↔ r = s.node (.unary op) .boolean e.shape none [e] :=
  Build.node_eq_ok

/-- A literal is converted and made anew; anything else is taken as it is. -/
theorem fill_eq_ok {value : Expr} :
    e.fill value s = .ok r ↔
      (∃ v w, value.kind.literal? = some v ∧ v.coerce e.type = some w
        ∧ r = s.node (.literal w) w.type .scalar none [])
      ∨ (value.kind.literal? = none ∧ e.type.promote value.type = some e.type ∧ r = (value, s)) := by
  unfold fill
  cases hv : value.kind.literal? with
  | some v =>
    simp only [Build.check_eq_ok, Checker.coerceLiteral_eq_ok, literal_eq_ok]
    simp
  | none =>
    simp only [Build.check_eq_ok, Checker.commonType_eq_ok, Checker.expectType_eq_ok,
      ElementType.promoteAll_pair, Build.pure_eq_ok]
    constructor
    · rintro ⟨t, ht, _, rfl, hr⟩
      exact Or.inr ⟨trivial, ht, hr⟩
    · rintro (⟨v, w, hv, _⟩ | ⟨_, ht, hr⟩)
      · cases hv
      · exact ⟨e.type, ht, (), rfl, hr⟩

theorem fillMissing_eq_ok {value : Expr} :
    e.fillMissing value s = .ok r ↔ value.shape = .scalar ∧ ∃ f s', e.fill value s = .ok (f, s')
      ∧ r = s'.node .fillMissing e.type e.shape none [e, f] := by
  unfold fillMissing
  rw [Build.check_eq_ok]
  simp only [Checker.expectScalar_eq_ok, Build.bind_eq_ok, Build.node_eq_ok]
  simp

/-! ## Membership, ranges, choices -/

omit [Hasher] in
theorem checkCandidates_eq_ok {c : Checker} {t : ElementType} {candidates : List Expr} {u : Unit} :
    checkCandidates c t candidates = .ok u ↔
      ∀ x ∈ candidates, x.shape = .scalar ∧ t.Promotable x.type := by
  unfold checkCandidates
  rw [forM_eq_ok]
  refine forall₂_congr fun x _ => ?_
  unfold checkCandidate
  rw [except_bind_eq_ok]
  simp only [Checker.expectScalar_eq_ok, Checker.checkCompatible_eq_ok]
  exact ⟨fun ⟨_, h⟩ => h, fun h => ⟨(), h⟩⟩

theorem membership_eq_ok {negated : Bool} {candidates : List Expr} :
    e.membership negated candidates s = .ok r ↔ candidates ≠ []
      ∧ (∀ x ∈ candidates, x.shape = .scalar ∧ e.type.Promotable x.type)
      ∧ r = s.node (.membership negated) .boolean e.shape none (e :: candidates) := by
  unfold membership
  simp only [Build.check_eq_ok, Checker.expectCount_eq_ok, checkCandidates_eq_ok, Build.node_eq_ok]
  simp

theorem between_eq_ok {lower upper : Expr} {inclusive : Bool} :
    e.between lower upper inclusive s = .ok r ↔
      ∃ t, ElementType.promoteAll [e.type, lower.type, upper.type] = some t
        ∧ r = s.node (.between inclusive) .boolean (.combine [e.shape, lower.shape, upper.shape]) none
          [e, lower, upper] := by
  unfold between
  simp only [Build.check_eq_ok, Checker.commonType_eq_ok, Build.node_eq_ok]

theorem conditional_eq_ok {ifTrue ifFalse : Expr} :
    e.conditional ifTrue ifFalse s = .ok r ↔ e.type = .boolean
      ∧ ∃ t, ifTrue.type.promote ifFalse.type = some t
        ∧ r = s.node .conditional t (.combine [e.shape, ifTrue.shape, ifFalse.shape]) none
          [e, ifTrue, ifFalse] := by
  unfold conditional
  simp only [Build.check_eq_ok, Checker.expectBoolean_eq_ok, Checker.commonType_eq_ok,
    ElementType.promoteAll_pair, Build.node_eq_ok]
  simp

/-! ## Switches -/

omit [Hasher] in
theorem checkCondition_eq_ok {case : Option Expr} {condition : Expr} {u : Unit} :
    checkCondition case condition = .ok u ↔ condition.type.AdmittedBy (case.map Expr.type) := by
  unfold checkCondition
  cases case with
  | some value => exact Checker.checkCompatible_eq_ok
  | none => exact guard_eq_ok

omit [Hasher] in
theorem checkConditions_eq_ok {case : Option Expr} {conditions : List Expr} {u : Unit} :
    checkConditions case conditions = .ok u ↔
      ∀ x ∈ conditions, x.type.AdmittedBy (case.map Expr.type) := by
  unfold checkConditions
  simp only [forM_eq_ok, checkCondition_eq_ok]

theorem switchOn_eq_ok {case : Option Expr} {cases : Cases} :
    switchOn case cases s = .ok r ↔ cases.pairs ≠ []
      ∧ (∀ x ∈ cases.conditions, x.type.AdmittedBy (case.map Expr.type))
      ∧ ∃ t, ElementType.promoteAll ((cases.thens ++ cases.default.toList).map Expr.type) = some t
        ∧ r = s.node (.switch case.isSome cases.default.isSome) t
          (.combine ((cases.branches case).toOperands.map Expr.shape)) none
          (cases.branches case).toOperands := by
  unfold switchOn
  simp only [Build.check_eq_ok, Checker.expectCount_eq_ok, checkConditions_eq_ok,
    Checker.commonType_eq_ok, Build.node_eq_ok, Cases.isEmpty]
  simp

/-! ## Bins -/

omit [Hasher] in
/-- Making bins is a row of checks, of which the one of the order comes after all edges and before the labels. -/
theorem makeBins_eq (c : Checker) (edges : List Value) (o : BinOptions) : makeBins c edges o =
    c.expectCount (!edges.isEmpty) "at least 1 bin edge" 0 >>= fun _ =>
    c.expectCount (2 ≤ edges.length || (o.includeUnder && o.includeOver))
      "at least 2 bin edges, or 1 with both open bins" edges.length >>= fun _ =>
    edges.mapM (edgeBound c) >>= fun xs =>
    (if ascending xs then .ok ()
      else .error (.invalidArgument c.operator "bin edges must be strictly increasing")) >>= fun _ =>
    binLabels c edges o >>= fun labels =>
    .ok ⟨edges, labels, o.right, o.includeLowest, o.includeUnder, o.includeOver⟩ := by
  unfold makeBins
  refine bind_congr fun _ => bind_congr fun _ => bind_congr fun xs => ?_
  cases ascending xs <;> rfl

omit [Hasher] in
/-- Bins are made of edges in order, as many as the options ask for, once there are labels. -/
theorem makeBins_eq_ok {c : Checker} {edges : List Value} {o : BinOptions} {bins : Bins} :
    makeBins c edges o = .ok bins ↔ edges ≠ []
      ∧ (2 ≤ edges.length ∨ o.includeUnder = true ∧ o.includeOver = true)
      ∧ ∃ xs labels, edges.mapM (edgeBound c) = .ok xs ∧ ascending xs = true ∧ binLabels c edges o = .ok labels
        ∧ bins = ⟨edges, labels, o.right, o.includeLowest, o.includeUnder, o.includeOver⟩ := by
  rw [makeBins_eq]
  simp only [except_bind_eq_ok, Checker.expectCount_eq_ok, guard_eq_ok]
  simp [@eq_comm _ bins]

theorem cut_eq_ok {edges : List Value} {o : BinOptions} :
    e.cut edges o s = .ok r ↔ e.type.isNumeric = true
      ∧ ∃ bins, makeBins ⟨"cut"⟩ edges o = .ok bins
        ∧ r = s.node (.cut bins) .string e.shape none [e] := by
  unfold cut
  simp only [Build.check_eq_ok, Checker.expectNumeric_eq_ok, Build.node_eq_ok]
  simp

end Expr

end Columnar
