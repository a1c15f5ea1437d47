import Columnar.Proofs.Bins.Labels
import Columnar.Proofs.Decimal.Conversion
import Columnar.Proofs.Expr.Comparison

/-!
# `Proofs.Expr.Congruence` — the same call on equal arguments

Checks see types and shapes, on which equal expressions agree, so a call on equal arguments is refused on both
sides or on neither. What is made is equal as well, with two exceptions: a literal that fills is converted, and
edges are compared as doubles and written into labels. Both look at a decimal more closely than equality does.

## Contents
- `node_agree_iff`: when two new nodes are equal.
- `Alike.binary_agree` and so on: calls that keep their arguments as they are.
- `Cases.Related`, `switchOn_agree`: the cases of a switch.
- `literalAs`, `Alike.fillMissing_agree`: the exception for literals.
- `bounds`, `makeBins_agree`, `Alike.cut_agree`: the exception for edges.
-/

namespace Columnar

/-! ## What equal arguments share -/

section

variable {α β : Type} {R : α → β → Prop}

theorem isEmpty_eq_of_forall₂ {as : List α} {bs : List β} (h : List.Forall₂ R as bs) : as.isEmpty = bs.isEmpty := by
  cases h <;> rfl

theorem forall₂_toList {a : Option α} {b : Option β} (h : Option.Rel R a b) : List.Forall₂ R a.toList b.toList := by
  cases h with
  | none => exact .nil
  | some hab => exact .cons hab .nil

theorem isSome_eq_of_rel {a : Option α} {b : Option β} (h : Option.Rel R a b) : a.isSome = b.isSome := by
  cases h <;> rfl

end

/-- Cases are related if conditions, results and defaults are, in order. -/
structure Cases.Related (E : Expr → Expr → Prop) (a b : Cases) : Prop where
  pairs : List.Forall₂ (fun p q => E p.1 q.1 ∧ E p.2 q.2) a.pairs b.pairs
  default : Option.Rel E a.default b.default

namespace Cases.Related

variable {E : Expr → Expr → Prop} {a b : Cases}

theorem conditions (h : Related E a b) : List.Forall₂ E a.conditions b.conditions := by
  unfold Cases.conditions
  rw [List.forall₂_map_left_iff, List.forall₂_map_right_iff]
  exact h.pairs.imp fun _ _ hpq => hpq.1

theorem thens (h : Related E a b) : List.Forall₂ E a.thens b.thens := by
  unfold Cases.thens
  rw [List.forall₂_map_left_iff, List.forall₂_map_right_iff]
  exact h.pairs.imp fun _ _ hpq => hpq.2

theorem imp {E' : Expr → Expr → Prop} (h : Related E a b) (hE : ∀ x y, E x y → E' x y) : Related E' a b where
  pairs := h.pairs.imp fun _ _ hpq => ⟨hE _ _ hpq.1, hE _ _ hpq.2⟩
  default :=
    match a.default, b.default, h.default with
    | _, _, .none => .none
    | _, _, .some hxy => .some (hE _ _ hxy)

end Cases.Related

namespace Expr

theorem Alike.type_eq {a b : Expr} (h : a.Alike b) : a.type = b.type := by
  obtain ⟨_, htype, _, _, _⟩ := h
  exact htype

theorem Alike.shape_eq {a b : Expr} (h : a.Alike b) : a.shape = b.shape := by
  obtain ⟨_, _, hshape, _, _⟩ := h
  exact hshape

/-- Expressions of different texts are refused for one cause. -/
theorem expectScalar_agree {a b : Expr} (h : a.Alike b) (c : Checker) (role : String) :
    Agree Eq (c.expectScalar a role) (c.expectScalar b role) := by
  unfold Checker.expectScalar isScalar
  rw [h.shape_eq]
  exact .guard Iff.rfl rfl

/-- Equal conditions are compared with equal values, or stand for themselves. -/
theorem checkCondition_agree {case case' : Option Expr} {x y : Expr} (hcase : Option.Rel Alike case case')
    (hxy : x.Alike y) : Agree Eq (checkCondition case x) (checkCondition case' y) := by
  unfold checkCondition
  rw [hxy.type_eq]
  cases hcase with
  | none => exact .guard Iff.rfl rfl
  | some hvalue =>
    simp only [hvalue.type_eq]
    exact .refl _

end Expr

theorem Kind.alike_literal_iff {v w : Value} : (literal v).Alike (literal w) ↔ v.Alike w :=
  same_iff_alike.symm.trans Value.same_iff_alike

theorem Kind.alike_cut_iff {a b : Bins} : (cut a).Alike (cut b) ↔ a.Alike b :=
  same_iff_alike.symm.trans Bins.same_iff_alike

theorem Value.Alike.refl (v : Value) : v.Alike v := same_iff_alike.mp (same_refl v)

theorem Value.Alike.type_eq {v w : Value} (h : v.Alike w) : v.type = w.type := by
  cases h <;> rfl

/-- Of equal values, both convert or neither does: all decimals convert to the same types. -/
theorem Value.Alike.coerce_isSome_eq {v w : Value} (h : v.Alike w) (target : ElementType) :
    (v.coerce target).isSome = (w.coerce target).isSome := by
  rcases h.eq_or_decimal with rfl | ⟨a, b, rfl, rfl, _⟩
  · rfl
  · cases target with
    | float f => cases f <;> rfl
    | _ => rfl

theorem Value.Alike.coerceLiteral_agree {v w : Value} (h : v.Alike w) (c : Checker) (target : ElementType) :
    Agree (fun x y => v.coerce target = some x ∧ w.coerce target = some y) (c.coerceLiteral v target)
      (c.coerceLiteral w target) := by
  have hboth := h.coerce_isSome_eq target
  unfold Checker.coerceLiteral
  cases hv : v.coerce target with
  | none =>
    rw [hv, Option.isSome_none, eq_comm, Option.isSome_eq_false_iff, Option.isNone_iff_eq_none] at hboth
    rw [hboth]
    exact .error rfl
  | some x =>
    rw [hv, Option.isSome_some, eq_comm] at hboth
    obtain ⟨y, hw⟩ := Option.isSome_iff_exists.mp hboth
    rw [hw]
    exact .ok ⟨rfl, rfl⟩

theorem Value.sameOption_refl (v : Option Value) : sameOption v v = true := by
  cases v with
  | none => rfl
  | some v => exact same_refl v

theorem Kind.Alike.literal? {k l : Kind} (h : k.Alike l) : Option.Rel Value.Alike k.literal? l.literal? := by
  cases h with
  | @rfl k =>
    cases k with
    | literal v => exact .some (.refl v)
    | _ => exact .none
  | literal hvw => exact .some hvw
  | cut _ => exact .none
  | map _ => exact .none

namespace Expr

section

variable [Hasher]

/-! ## Nodes -/

/-- New nodes of one type and shape are equal exactly if their kinds and operands are. -/
theorem node_alike_iff {k l : Kind} {t : ElementType} {sh : Shape} {n : Option String} {os ps : List Expr}
    (s u : Supply) :
    (s.node k t sh n os).1.Alike (u.node l t sh n ps).1 ↔ k.Alike l ∧ List.Forall₂ Alike os ps := by
  constructor
  · intro h
    exact ⟨h.kind, h.operands⟩
  · rintro ⟨hk, hos⟩
    exact .node hk rfl rfl rfl hos

theorem node_agree_iff {k l : Kind} {t : ElementType} {sh : Shape} {os ps : List Expr} :
    Build.Agree (fun a b => a.Alike b ↔ k.Alike l ∧ List.Forall₂ Alike os ps) (.node k t sh os) (.node l t sh ps) :=
  fun s u => .ok (node_alike_iff s u)

theorem node_agree {k l : Kind} {t : ElementType} {sh : Shape} {os ps : List Expr} (hk : k.Alike l)
    (hos : List.Forall₂ Alike os ps) : Build.Agree Alike (.node k t sh os) (.node l t sh ps) :=
  node_agree_iff.imp fun _ _ h => h.mpr ⟨hk, hos⟩

/-! ## Calls that keep their arguments -/

theorem literal_agree {v w : Value} (h : v.Alike w) : Build.Agree Alike (literal v) (literal w) := by
  unfold literal
  rw [h.type_eq]
  exact node_agree (.literal h) .nil

section

variable {a b x y z w : Expr} (h : a.Alike b)

include h

theorem Alike.rename_agree (name : String) : Build.Agree Alike (a.rename name) (b.rename name) := by
  intro s t
  obtain ⟨hk, ht, hs, _, hos⟩ := h
  exact .ok (.node hk ht hs rfl hos)

theorem Alike.binary_agree (op : BinaryOperator) (hxy : x.Alike y) :
    Build.Agree Alike (a.binary op x) (b.binary op y) := by
  unfold binary
  rw [h.type_eq, h.shape_eq, hxy.type_eq, hxy.shape_eq]
  exact .same_check _ fun _ => node_agree .rfl (.cons h (.cons hxy .nil))

theorem Alike.unary_agree (op : UnaryOperator) : Build.Agree Alike (a.unary op) (b.unary op) := by
  unfold unary
  rw [h.type_eq, h.shape_eq]
  exact .same_check _ fun _ => node_agree .rfl (.cons h .nil)

theorem Alike.reduce_agree (op : Reduction) : Build.Agree Alike (a.reduce op) (b.reduce op) := by
  unfold reduce
  rw [h.type_eq]
  exact .same_check _ fun _ => node_agree .rfl (.cons h .nil)

theorem Alike.cast_agree (target : ElementType) : Build.Agree Alike (a.cast target) (b.cast target) := by
  unfold cast
  rw [h.type_eq, h.shape_eq]
  by_cases htarget : target = b.type
  · rw [if_pos htarget, if_pos htarget]
    exact .pure h
  · rw [if_neg htarget, if_neg htarget]
    exact .same_check _ fun _ => node_agree .rfl (.cons h .nil)

theorem Alike.nullTest_agree (op : UnaryOperator) : Build.Agree Alike (a.nullTest op) (b.nullTest op) := by
  unfold nullTest
  rw [h.shape_eq]
  exact node_agree .rfl (.cons h .nil)

theorem Alike.between_agree (inclusive : Bool) (hxy : x.Alike y) (hzw : z.Alike w) :
    Build.Agree Alike (a.between x z inclusive) (b.between y w inclusive) := by
  unfold between
  rw [h.type_eq, h.shape_eq, hxy.type_eq, hxy.shape_eq, hzw.type_eq, hzw.shape_eq]
  exact .same_check _ fun _ => node_agree .rfl (.cons h (.cons hxy (.cons hzw .nil)))

theorem Alike.conditional_agree (hxy : x.Alike y) (hzw : z.Alike w) :
    Build.Agree Alike (a.conditional x z) (b.conditional y w) := by
  unfold conditional Checker.expectBoolean
  rw [h.type_eq, h.shape_eq, hxy.type_eq, hxy.shape_eq, hzw.type_eq, hzw.shape_eq]
  exact .same_check _ fun _ => .same_check _ fun _ => node_agree .rfl (.cons h (.cons hxy (.cons hzw .nil)))

end

theorem Alike.membership_agree {a b : Expr} {xs ys : List Expr} (h : a.Alike b) (negated : Bool)
    (hxs : List.Forall₂ Alike xs ys) : Build.Agree Alike (a.membership negated xs) (b.membership negated ys) := by
  unfold membership
  rw [h.type_eq, h.shape_eq, isEmpty_eq_of_forall₂ hxs]
  refine .same_check _ fun _ => .check (R := Eq) ?_ fun _ _ _ => node_agree .rfl (.cons h hxs)
  refine .forM hxs fun x y hxy => ?_
  unfold checkCandidate
  rw [hxy.type_eq]
  exact (expectScalar_agree hxy _ _).bind fun _ _ _ => .refl _

theorem switchOn_agree {case case' : Option Expr} {cases cases' : Cases} (hcase : Option.Rel Alike case case')
    (h : cases.Related Alike cases') : Build.Agree Alike (switchOn case cases) (switchOn case' cases') := by
  have hempty : cases.isEmpty = cases'.isEmpty := isEmpty_eq_of_forall₂ h.pairs
  have hresults := List.rel_append h.thens (forall₂_toList h.default)
  have htypes : (cases.thens ++ cases.default.toList).map Expr.type
      = (cases'.thens ++ cases'.default.toList).map Expr.type :=
    map_eq_of_forall₂ hresults fun _ _ _ _ hxy => hxy.type_eq
  have hoperands : List.Forall₂ Alike (cases.branches case).toOperands (cases'.branches case').toOperands :=
    List.rel_append (List.rel_append (List.rel_append (forall₂_toList hcase) h.conditions) h.thens)
      (forall₂_toList h.default)
  have hshapes : (cases.branches case).toOperands.map Expr.shape
      = (cases'.branches case').toOperands.map Expr.shape :=
    map_eq_of_forall₂ hoperands fun _ _ _ _ hxy => hxy.shape_eq
  unfold switchOn
  rw [hempty, htypes]
  refine .same_check _ fun _ => .check (R := Eq) ?_ fun _ _ _ => .same_check _ fun _ => ?_
  · exact .forM h.conditions fun _ _ hxy => checkCondition_agree hcase hxy
  · simp only [hshapes, isSome_eq_of_rel hcase, isSome_eq_of_rel h.default]
    exact node_agree .rfl hoperands

/-! ## A literal that fills -/

/-- A literal as a value of a type, if it converts. -/
def literalAs (e : Expr) (target : ElementType) : Option Value := e.kind.literal?.bind (·.coerce target)

omit [Hasher] in
/-- Equal literals convert to equal values, unless they are decimals that become doubles. -/
theorem Alike.sameOption_literalAs_iff {x y : Expr} (h : x.Alike y) (target : ElementType) :
    Value.sameOption (x.literalAs target) (y.literalAs target) = true
      ↔ (target = .float .double → x.literalAs target = y.literalAs target) := by
  have hliteral := h.kind.literal?
  unfold literalAs
  generalize x.kind.literal? = v at *
  generalize y.kind.literal? = w at *
  cases hliteral with
  | none => exact iff_of_true rfl fun _ => rfl
  | some hvw =>
    rcases hvw.eq_or_decimal with rfl | ⟨a, b, rfl, rfl, hnumber⟩
    · exact iff_of_true (Value.sameOption_refl _) fun _ => rfl
    · cases target with
      | decimal => exact iff_of_true hnumber nofun
      | float f =>
        cases f with
        | single => exact iff_of_true rfl nofun
        | double =>
          show Value.same (.float .double a.toDouble) (.float .double b.toDouble) = true
            ↔ (_ → some (Value.float .double a.toDouble) = some (.float .double b.toDouble))
          rw [Value.same_iff, forall_prop_of_true rfl, Option.some.injEq, or_iff_left]
          rintro ⟨_, _, hdecimal, _⟩
          cases hdecimal
      | _ => exact iff_of_true rfl nofun

/-- Equal expressions stand in for missing values on equal terms, and they are equal after that if what they
are converted to is. -/
theorem Alike.fill_agree {a b x y : Expr} (h : a.Alike b) (hxy : x.Alike y) :
    Build.Agree (fun p q => p.Alike q ↔ Value.sameOption (x.literalAs b.type) (y.literalAs b.type) = true)
      (a.fill x) (b.fill y) := by
  have hliteral := hxy.kind.literal?
  unfold fill literalAs
  rw [h.type_eq]
  generalize x.kind.literal? = v at *
  generalize y.kind.literal? = w at *
  cases hliteral with
  | none =>
    rw [hxy.type_eq]
    exact .same_check _ fun _ => .same_check _ fun _ => .pure (iff_of_true hxy rfl)
  | some hvw =>
    refine .check (hvw.coerceLiteral_agree _ _) fun v' w' hconverted => ?_
    have htype : v'.type = w'.type :=
      (Value.coerce_type hconverted.1).trans (Value.coerce_type hconverted.2).symm
    unfold literal
    rw [htype, Option.bind_some, Option.bind_some, hconverted.1, hconverted.2]
    refine node_agree_iff.imp fun p q hpq => hpq.trans ?_
    rw [Kind.alike_literal_iff, Value.sameOption, Value.same_iff_alike]
    exact and_iff_left .nil

theorem Alike.fillMissing_agree {a b x y : Expr} (h : a.Alike b) (hxy : x.Alike y) :
    Build.Agree (fun p q => p.Alike q
        ↔ (a.type = .float .double → x.literalAs (.float .double) = y.literalAs (.float .double)))
      (a.fillMissing x) (b.fillMissing y) := by
  unfold fillMissing
  rw [h.type_eq, h.shape_eq]
  refine .check (R := Eq) (expectScalar_agree hxy _ _) fun _ _ _ => (h.fill_agree hxy).bind fun p q hpq => ?_
  refine node_agree_iff.imp fun _ _ hnode => hnode.trans ?_
  rw [hxy.sameOption_literalAs_iff] at hpq
  have hfill : p.Alike q
      ↔ (b.type = .float .double → x.literalAs (.float .double) = y.literalAs (.float .double)) :=
    hpq.trans (forall_congr' fun htype => by rw [htype])
  rw [List.forall₂_cons, List.forall₂_cons, ← hfill]
  constructor
  · rintro ⟨_, _, hfill, _⟩
    exact hfill
  · intro hfill
    exact ⟨.rfl, h, hfill, .nil⟩

end

/-! ## Edges -/

/-- The doubles that edges are compared by. -/
def bounds (edges : List Value) : List (Binary .double) := edges.filterMap Value.asDouble

theorem asDouble_of_edgeBound_eq_ok {c : Checker} {v : Value} {x : Binary .double} (h : edgeBound c v = .ok x) :
    v.asDouble = some x := by
  unfold edgeBound at h
  obtain ⟨_, _, h⟩ := except_bind_eq_ok.mp h
  cases hv : v.asDouble with
  | none =>
    rw [hv] at h
    cases h
  | some y =>
    simp only [hv] at h
    split at h
    · cases h
    · cases h
      rfl

theorem bounds_of_mapM_eq_ok {c : Checker} {edges : List Value} {xs : List (Binary .double)}
    (h : edges.mapM (edgeBound c) = .ok xs) : xs = bounds edges := by
  replace h := mapM_eq_ok.mp h
  induction h with
  | nil => rfl
  | cons hx _ ih =>
    unfold bounds
    rw [List.filterMap_cons_some (asDouble_of_edgeBound_eq_ok hx), ih]
    rfl

/-- Bins are made of edges that are in order. -/
theorem ascending_of_makeBins_eq_ok {c : Checker} {edges : List Value} {o : BinOptions} {bins : Bins}
    (h : makeBins c edges o = .ok bins) : ascending (bounds edges) = true := by
  obtain ⟨_, _, xs, _, hxs, hordered, _⟩ := makeBins_eq_ok.mp h
  rw [← bounds_of_mapM_eq_ok hxs]
  exact hordered

/-- Equal edges are both numbers or both not, since only a float can be a NaN. -/
theorem edgeBound_agree {v w : Value} (h : v.Alike w) (c : Checker) :
    Agree (fun _ _ => True) (edgeBound c v) (edgeBound c w) := by
  rcases h.eq_or_decimal with rfl | ⟨a, b, rfl, rfl, _⟩
  · exact (Agree.refl _).imp fun _ _ _ => trivial
  · have hbound : ∀ d, edgeBound c (.decimal d) = .ok d.toDouble := by
      intro d
      unfold edgeBound
      simp only [Value.asDouble, Decimal.isNaN_toDouble]
      rfl
    rw [hbound, hbound]
    exact .ok trivial

section

variable {edges edges' : List Value} {o : BinOptions} (h : List.Forall₂ Value.Alike edges edges')
include h

/-- The labels that are given are the same; labels that are generated are so only if the edges are. -/
theorem binLabels_agree (c : Checker) (hbins : 2 ≤ edges.length ∨ o.includeUnder = true) :
    Agree (fun ls ms => ls = ms ↔ (o.labels = none → edges = edges')) (binLabels c edges o)
      (binLabels c edges' o) := by
  unfold binLabels
  rw [h.length_eq]
  cases o.labels with
  | some labels => exact (Agree.refl _).bind fun _ _ _ => .ok (iff_of_true rfl nofun)
  | none => exact .ok ((BinOptions.labels_eq_iff h hbins).trans ⟨fun hedges _ => hedges, fun hedges => hedges rfl⟩)

/-- Equal edges are accepted or refused together if their doubles are in order together, and the bins are equal
only if no label shows a difference. -/
theorem makeBins_agree (c : Checker) (hordered : ascending (bounds edges) = ascending (bounds edges')) :
    Agree (fun a b => a.Alike b ↔ (o.labels = none → edges = edges')) (makeBins c edges o)
      (makeBins c edges' o) := by
  unfold makeBins
  rw [isEmpty_eq_of_forall₂ h, ← h.length_eq]
  refine (Agree.refl _).bind fun _ _ _ => (Agree.refl _).outcome.bind fun _ _ ⟨_, hcount, _⟩ => ?_
  refine (Agree.mapM h fun _ _ hvw => edgeBound_agree hvw c).outcome.bind fun xs ys ⟨_, hxs, hys⟩ => ?_
  rw [bounds_of_mapM_eq_ok hxs, bounds_of_mapM_eq_ok hys, hordered]
  have hbins : 2 ≤ edges.length ∨ o.includeUnder = true := by
    have hcount := Checker.expectCount_eq_ok.mp hcount
    simp only [Bool.or_eq_true, decide_eq_true_eq, Bool.and_eq_true] at hcount
    exact hcount.imp_right And.left
  cases ascending (bounds edges') with
  | false => exact .error rfl
  | true =>
    refine (binLabels_agree h c hbins).bind fun ls ms hlabels => .ok ?_
    rw [← hlabels]
    constructor
    · intro hab
      exact hab.labels
    · intro hlabels
      exact ⟨h, hlabels, rfl, rfl, rfl, rfl⟩

theorem Alike.cut_agree [Hasher] {a b : Expr} (hab : a.Alike b)
    (hordered : ascending (bounds edges) = ascending (bounds edges')) :
    Build.Agree (fun p q => p.Alike q ↔ (o.labels = none → edges = edges')) (a.cut edges o) (b.cut edges' o) := by
  unfold cut
  rw [hab.type_eq, hab.shape_eq]
  refine .same_check _ fun _ => .check (makeBins_agree h _ hordered) fun bins bins' hbins => ?_
  refine node_agree_iff.imp fun _ _ hnode => hnode.trans ?_
  rw [Kind.alike_cut_iff, hbins]
  exact and_iff_left (.cons hab .nil)

end

end Expr

end Columnar
