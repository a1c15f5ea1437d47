import Columnar.Proofs.Expr.Renumber
import Columnar.Proofs.Session.Basic

/-!
# `Proofs.Expr.Equivariance` — constructions under other numbers

Checks see types, shapes, names and texts, on which an expression and its renumbered form agree. So a construction
is refused for the same reason under other numbers, or else makes the same node under other numbers, as long as
identities are drawn later by as many as the renumbering says.

## Contents
- `Supply.after`: a supply from which others have drawn before.
- `Build.Renumbers`: a construction and its renumbered form, with rules for constructions in a row.
- `Cases.map`: the same cases of other expressions.
- `node_renumbers`, `rename_renumbers`, `switchOn_renumbers`: nodes, and the choices that collections make too.
- `Construction.map`, `Construction.build_renumbers`: any construction on renumbered arguments.
-/

namespace Columnar

/-- The supply as it is if so many identities of each sort have been drawn by others before. -/
def Supply.after (past s : Supply) : Supply where
  nextNode := past.nextNode + s.nextNode
  nextSource := past.nextSource + s.nextSource
  nextFunction := past.nextFunction + s.nextFunction

/-- A node made later over renumbered operands is the node under other numbers. -/
theorem Supply.node_after [Hasher] {ρ : Renumbering} {past : Supply} (h : past.nextNode = ρ.nodes) (s : Supply)
    (k : Kind) (t : ElementType) (sh : Shape) (n : Option String) (os : List Expr) :
    (past.after s).node (k.renumber ρ) t sh n (os.map (Expr.renumber ρ))
      = ((s.node k t sh n os).1.renumber ρ, past.after (s.node k t sh n os).2) := by
  unfold node Expr.renumber
  rw [Expr.renumberList_eq_map]
  unfold NodeId.later
  rw [← h]
  rfl

namespace Build

variable {α β γ δ : Type}

/-- The second construction, made after others have drawn, does what the first does: it is refused for the same
reason, or its result is the renumbered one and it draws as much. -/
def Renumbers (ρ : Renumbering) (f : α → β) (x : Build α) (y : Build β) : Prop :=
  ∀ past s : Supply, past.nextNode = ρ.nodes → y (past.after s) = (fun r => (f r.1, past.after r.2)) <$> x s

namespace Renumbers

variable {ρ : Renumbering} {f : α → β} {g : γ → δ}

theorem pure (a : α) : Renumbers ρ f (Pure.pure a) (Pure.pure (f a)) := fun _ _ _ => rfl

theorem bind {x : Build α} {y : Build β} {p : α → Build γ} {q : β → Build δ} (h : Renumbers ρ f x y)
    (hpq : ∀ a, Renumbers ρ g (p a) (q (f a))) : Renumbers ρ g (x >>= p) (y >>= q) := by
  intro past s hpast
  show (y (past.after s) >>= fun r => q r.1 r.2) = _ <$> (x s >>= fun r => p r.1 r.2)
  rw [h past s hpast]
  cases x s with
  | error e => rfl
  | ok r => exact hpq r.1 past r.2 hpast

/-- A check of the same data on both sides. -/
theorem check (c : Except BuildError α) {p : α → Build γ} {q : α → Build δ} (hpq : ∀ a, Renumbers ρ g (p a) (q a)) :
    Renumbers ρ g ((liftM c : Build α) >>= p) ((liftM c : Build α) >>= q) := by
  cases c with
  | error e => exact fun _ _ _ => rfl
  | ok a => exact hpq a

theorem map {x : Build α} {y : Build β} {p : α → γ} {q : β → δ} (h : Renumbers ρ f x y)
    (hpq : ∀ a, q (f a) = g (p a)) : Renumbers ρ g (p <$> x) (q <$> y) := by
  rw [map_eq_pure_bind, map_eq_pure_bind]
  refine h.bind fun a => ?_
  rw [hpq]
  exact pure _

/-- Constructions one after the other, one for each item. -/
theorem mapM {ι κ : Type} {items : List ι} {r : ι → κ} {x : ι → Build α} {y : κ → Build β}
    (h : ∀ i, Renumbers ρ f (x i) (y (r i))) :
    Renumbers ρ (List.map f) (items.mapM x) ((items.map r).mapM y) := by
  induction items with
  | nil => exact pure []
  | cons i items ih =>
    rw [List.map_cons, List.mapM_cons, List.mapM_cons]
    exact (h i).bind fun a => ih.bind fun as => pure (a :: as)

/-- Constructions for the same items on both sides. -/
theorem mapM_same {ι : Type} {items : List ι} {x : ι → Build α} {y : ι → Build β}
    (h : ∀ i, Renumbers ρ f (x i) (y i)) : Renumbers ρ (List.map f) (items.mapM x) (items.mapM y) := by
  have hmap : Renumbers ρ (List.map f) (items.mapM x) ((items.map id).mapM y) := mapM h
  rwa [List.map_id] at hmap

end Renumbers

end Build

/-! ## Cases -/

namespace Cases

/-- The same cases of other expressions. -/
def map (f : Expr → Expr) (cases : Cases) : Cases where
  pairs := cases.pairs.map fun p => (f p.1, f p.2)
  default := cases.default.map f

variable (f : Expr → Expr) (cases : Cases)

theorem isEmpty_map : (cases.map f).isEmpty = cases.isEmpty := List.isEmpty_map

theorem default_map : (cases.map f).default = cases.default.map f := rfl

theorem conditions_map : (cases.map f).conditions = cases.conditions.map f := by
  unfold conditions map
  simp only [List.map_map, Function.comp_def]

theorem thens_map : (cases.map f).thens = cases.thens.map f := by
  unfold thens map
  simp only [List.map_map, Function.comp_def]

theorem exprs_map : (cases.map f).exprs = cases.exprs.map f := by
  unfold exprs map
  rw [List.flatMap_map, List.map_append, List.map_flatMap, Option.toList_map]
  rfl

theorem branches_map (case : Option Expr) : (cases.map f).branches (case.map f) = (cases.branches case).map f := by
  unfold branches Branches.map
  rw [conditions_map, thens_map, default_map]

end Cases

namespace Expr

variable [Hasher] {ρ : Renumbering}

/-! ## Nodes and checks -/

theorem node_renumbers (k : Kind) (t : ElementType) (sh : Shape) (os : List Expr) :
    Build.Renumbers ρ (renumber ρ) (.node k t sh os) (.node (k.renumber ρ) t sh (os.map (renumber ρ))) := by
  intro past s h
  exact congrArg Except.ok (Supply.node_after h s k t sh none os)

theorem rename_renumbers (e : Expr) (name : String) :
    Build.Renumbers ρ (renumber ρ) (e.rename name) ((e.renumber ρ).rename name) := by
  intro past s h
  unfold rename
  rw [kind_renumber, type_renumber, shape_renumber, operands_renumber]
  exact congrArg Except.ok (Supply.node_after h s _ _ _ _ _)

@[simp] theorem expectScalar_renumber (c : Checker) (e : Expr) (role : String) :
    c.expectScalar (e.renumber ρ) role = c.expectScalar e role := by
  unfold Checker.expectScalar
  simp

omit [Hasher] in
/-- A check that accepts the renumbered items where it accepts the items. -/
theorem forM_map_eq {α β ε : Type} {items : List α} {r : α → β} {f : α → Except ε Unit} {g : β → Except ε Unit}
    (h : ∀ a, g (r a) = f a) : (items.map r).forM g = items.forM f := by
  induction items with
  | nil => rfl
  | cons a items ih =>
    show (g (r a) >>= fun _ => (items.map r).forM g) = (f a >>= fun _ => items.forM f)
    rw [h, ih]

theorem checkCandidates_renumber (c : Checker) (t : ElementType) (es : List Expr) :
    checkCandidates c t (es.map (renumber ρ)) = checkCandidates c t es := by
  refine forM_map_eq fun e => ?_
  unfold checkCandidate
  rw [expectScalar_renumber, type_renumber]

theorem checkConditions_renumber (case : Option Expr) (es : List Expr) :
    checkConditions (case.map (renumber ρ)) (es.map (renumber ρ)) = checkConditions case es := by
  refine forM_map_eq fun e => ?_
  unfold checkCondition
  rw [type_renumber, text_renumber]
  cases case with
  | none => rfl
  | some value => exact congrArg (fun t => Checker.checkCompatible _ t _) (type_renumber ρ value)

/-! ## Constructions -/

theorem nullTest_renumbers (e : Expr) (op : UnaryOperator) :
    Build.Renumbers ρ (renumber ρ) (e.nullTest op) ((e.renumber ρ).nullTest op) := by
  unfold nullTest
  rw [shape_renumber]
  exact node_renumbers (.unary op) .boolean _ [e]

theorem fill_renumbers (e value : Expr) :
    Build.Renumbers ρ (renumber ρ) (e.fill value) ((e.renumber ρ).fill (value.renumber ρ)) := by
  unfold fill
  simp only [kind_renumber, Kind.literal?_renumber, type_renumber]
  cases value.kind.literal? with
  | some v => exact .check _ fun w => node_renumbers (.literal w) w.type .scalar []
  | none => exact .check _ fun _ => .check _ fun _ => .pure value

theorem switchOn_renumbers (case : Option Expr) (cases : Cases) :
    Build.Renumbers ρ (renumber ρ) (switchOn case cases)
      (switchOn (case.map (renumber ρ)) (cases.map (renumber ρ))) := by
  have hresults : (((cases.map (renumber ρ)).thens ++ (cases.map (renumber ρ)).default.toList).map Expr.type)
      = (cases.thens ++ cases.default.toList).map Expr.type := by
    rw [Cases.thens_map, Cases.default_map, Option.toList_map, ← List.map_append, List.map_map]
    exact List.map_congr_left fun e _ => type_renumber ρ e
  have hoperands : ((cases.map (renumber ρ)).branches (case.map (renumber ρ))).toOperands
      = (cases.branches case).toOperands.map (renumber ρ) := by
    rw [Cases.branches_map, Branches.toOperands_map]
  have hshapes : ((cases.branches case).toOperands.map (renumber ρ)).map Expr.shape
      = (cases.branches case).toOperands.map Expr.shape := by
    rw [List.map_map]
    exact List.map_congr_left fun e _ => shape_renumber ρ e
  unfold switchOn
  rw [Cases.isEmpty_map, Cases.conditions_map, checkConditions_renumber, hresults]
  simp only [hoperands, hshapes, Cases.default_map, Option.isSome_map]
  exact .check _ fun _ => .check _ fun _ => .check _ fun t => node_renumbers _ _ _ _

end Expr

namespace Construction

/-- The same call on other expressions. -/
def map (f : Expr → Expr) : Construction → Construction
  | literal v => literal v
  | rename e name => rename (f e) name
  | binary e op rhs => binary (f e) op (f rhs)
  | unary e op => unary (f e) op
  | reduce e op => reduce (f e) op
  | cast e target => cast (f e) target
  | isNull e => isNull (f e)
  | notNull e => notNull (f e)
  | fillMissing e value => fillMissing (f e) (f value)
  | membership e negated candidates => membership (f e) negated (candidates.map f)
  | between e lower upper inclusive => between (f e) (f lower) (f upper) inclusive
  | conditional e ifTrue ifFalse => conditional (f e) (f ifTrue) (f ifFalse)
  | switch e cases => switch (f e) (cases.map f)
  | cut e edges o => cut (f e) edges o

open Columnar.Expr in
/-- A call on renumbered arguments is refused for the same reason, or makes the renumbered result. -/
theorem build_renumbers [Hasher] (ρ : Renumbering) (k : Construction) :
    Build.Renumbers ρ (renumber ρ) k.build (k.map (renumber ρ)).build := by
  cases k with
  | literal v => exact node_renumbers (.literal v) v.type .scalar []
  | rename e name => exact rename_renumbers e name
  | binary e op rhs =>
    simp only [build, map, Expr.binary, type_renumber, shape_renumber]
    exact .check _ fun t => node_renumbers (.binary op) t _ [e, rhs]
  | unary e op =>
    simp only [build, map, Expr.unary, type_renumber, shape_renumber]
    exact .check _ fun t => node_renumbers (.unary op) t _ [e]
  | reduce e op =>
    simp only [build, map, Expr.reduce, type_renumber]
    exact .check _ fun t => node_renumbers (.reduce op) t _ [e]
  | cast e target =>
    simp only [build, map, Expr.cast, type_renumber, shape_renumber]
    by_cases htarget : target = e.type
    · rw [if_pos htarget, if_pos htarget]
      exact .pure e
    · rw [if_neg htarget, if_neg htarget]
      exact .check _ fun _ => node_renumbers .cast target _ [e]
  | isNull e | notNull e => exact nullTest_renumbers e _
  | fillMissing e value =>
    simp only [build, map, Expr.fillMissing, type_renumber, shape_renumber, expectScalar_renumber]
    exact .check _ fun _ => (fill_renumbers e value).bind fun f => node_renumbers .fillMissing e.type _ [e, f]
  | membership e negated candidates =>
    simp only [build, map, Expr.membership, type_renumber, shape_renumber, checkCandidates_renumber, List.isEmpty_map]
    exact .check _ fun _ => .check _ fun _ => node_renumbers (.membership negated) .boolean _ (e :: candidates)
  | between e lower upper inclusive =>
    simp only [build, map, Expr.between, type_renumber, shape_renumber]
    exact .check _ fun _ => node_renumbers (.between inclusive) .boolean _ [e, lower, upper]
  | conditional e ifTrue ifFalse =>
    simp only [build, map, Expr.conditional, Checker.expectBoolean, type_renumber, shape_renumber]
    exact .check _ fun _ => .check _ fun t => node_renumbers .conditional t _ [e, ifTrue, ifFalse]
  | switch e cases => exact switchOn_renumbers (some e) cases
  | cut e edges o =>
    simp only [build, map, Expr.cut, type_renumber, shape_renumber]
    exact .check _ fun _ => .check _ fun bins => node_renumbers (.cut bins) .string _ [e]

end Construction

end Columnar
