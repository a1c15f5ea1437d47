import Columnar.Proofs.Collection.Ownership
import Columnar.Proofs.Expr.Outcome

/-!
# `Proofs.Collection.Switch` — what a switch accepts, and why it is refused

A switch is called on a value, with which the conditions are compared, or on a collection, whose fields stand in the
conditions. All checks come before the node is made, and none of them needs the supply. So a call is a row of checks
that comes to a type, and the node of that type.

## Contents
- `Receiver`, `Receiver.switch`: what a switch is called on, and the call.
- `Receiver.switchType`, `switch_eq`: the checks of a call, and the node.
- `Receiver.Accepts`, `switchType_eq_ok`: what is accepted.
- `Receiver.Refuses`, `switchType_eq_error`: the first fault of what is not.
- `switch_outcome`: the outcome of a call.
-/

namespace Columnar

/-- The types of all results and of the default. -/
def Cases.resultTypes (cases : Cases) : List ElementType := (cases.thens ++ cases.default.toList).map Expr.type

/-- What a switch is called on: a value that the conditions are compared with, or a collection. -/
inductive Receiver
  | value (e : Expr)
  | collection (c : Collection)

namespace Receiver

/-- The value that the conditions are compared with. -/
def case : Receiver → Option Expr
  | value e => some e
  | collection _ => none

/-- The call. -/
def switch [Hasher] : Receiver → Cases → Build Expr
  | value e, cases => e.switch cases
  | collection c, cases => c.switch cases

/-- A collection takes its own expressions only. -/
def checkOwned : Receiver → Cases → Except BuildError Unit
  | value _, _ => .ok ()
  | collection c, cases => c.checkAllOwned cases.exprs

/-- The checks of a call, in order. They come to the type of the node. -/
def switchType (r : Receiver) (cases : Cases) : Except BuildError ElementType := do
  r.checkOwned cases
  Checker.expectCount ⟨"switch"⟩ (!cases.isEmpty) "at least one case" 0
  Expr.checkConditions r.case cases.conditions
  Checker.commonType ⟨"switch"⟩ cases.resultTypes

/-- The node of a switch that has passed the checks. -/
def switchNode [Hasher] (r : Receiver) (cases : Cases) (t : ElementType) (s : Supply) : Expr × Supply :=
  s.node (.switch r.case.isSome cases.default.isSome) t
    (.combine ((cases.branches r.case).toOperands.map Expr.shape)) none (cases.branches r.case).toOperands

/-- A call makes a node of the type that its checks come to, or is refused as they are. -/
theorem switch_eq [Hasher] (r : Receiver) (cases : Cases) (s : Supply) :
    r.switch cases s = r.switchType cases >>= fun t => .ok (r.switchNode cases t s) := by
  cases r with
  | value e =>
    unfold switch Expr.switch Expr.switchOn switchType
    simp only [Build.check_eq, bind_assoc]
    rfl
  | collection c =>
    unfold switch Collection.switch Expr.switchOn switchType
    simp only [Build.check_eq, bind_assoc]
    rfl

variable {r : Receiver} {cases : Cases} {t : ElementType} {err : BuildError} {u : Unit}

/-! ## What is accepted -/

/-- All expressions belong to the collection that the switch is called on. -/
def Owned (r : Receiver) (cases : Cases) : Prop :=
  ∀ c, r = .collection c → ∀ x ∈ cases.exprs, x.Over c.source

/-- A condition can be compared with the value of the switch, or is boolean where there is none. -/
def Admits (r : Receiver) (x : Expr) : Prop := x.type.AdmittedBy (r.case.map Expr.type)

/-- What a switch accepts: expressions of the collection that it is called on, one case at least, conditions that are
admitted, and results that have a common type, together with the default. -/
structure Accepts (r : Receiver) (cases : Cases) (t : ElementType) : Prop where
  owned : r.Owned cases
  nonempty : cases.pairs ≠ []
  conditions : ∀ x ∈ cases.conditions, r.Admits x
  results : ElementType.promoteAll cases.resultTypes = some t

theorem checkOwned_eq_ok : r.checkOwned cases = .ok u ↔ r.Owned cases := by
  cases r with
  | value e => exact iff_of_true rfl nofun
  | collection c =>
    have hcheck : (collection c).checkOwned cases = .ok u ↔ ∀ x ∈ cases.exprs, x.Over c.source := by
      simp only [checkOwned, Collection.checkAllOwned, forM_eq_ok, Collection.checkOwned_eq_ok]
    rw [hcheck]
    constructor
    · rintro h _ ⟨⟩
      exact h
    · exact fun h => h c rfl

theorem expectCase_eq_ok :
    Checker.expectCount ⟨"switch"⟩ (!cases.isEmpty) "at least one case" 0 = .ok u ↔ cases.pairs ≠ [] :=
  Checker.expectCount_isEmpty_eq_ok

theorem switchType_eq_ok : r.switchType cases = .ok t ↔ r.Accepts cases t := by
  unfold switchType
  simp only [except_bind_eq_ok, checkOwned_eq_ok, expectCase_eq_ok, Expr.checkConditions_eq_ok,
    Checker.commonType_eq_ok]
  constructor
  · rintro ⟨_, howned, _, hnonempty, _, hconditions, hresults⟩
    exact ⟨howned, hnonempty, hconditions, hresults⟩
  · rintro ⟨howned, hnonempty, hconditions, hresults⟩
    exact ⟨(), howned, (), hnonempty, (), hconditions, hresults⟩

/-! ## What is refused -/

/-- The refusal of a condition. -/
def conditionError : Receiver → Expr → BuildError
  | value e, x => .noCommonType e.type x.type "switch"
  | collection _, x => .ambiguous "switch"
    ("condition " ++ x.text ++ " is not boolean and there is no value to compare it with")

/-- Why a switch is refused: the first fault in the order of the checks. An expression over another source comes
before anything else, then that there is no case, then the first condition that is not admitted, then the results. -/
inductive Refuses (r : Receiver) (cases : Cases) : BuildError → Prop
  | foreign {c : Collection} {x : Expr} : r = .collection c → FirstNot (·.Over c.source) cases.exprs x →
      Refuses r cases (.foreignField x.text c.name)
  | noCase : r.Owned cases → cases.pairs = [] → Refuses r cases (.argumentCount "switch" "at least one case" 0)
  | condition {x : Expr} : r.Owned cases →
      FirstNot r.Admits cases.conditions x →
      Refuses r cases (r.conditionError x)
  | results {left right : ElementType} : r.Owned cases → cases.pairs ≠ [] →
      (∀ x ∈ cases.conditions, r.Admits x) →
      ElementType.PartAt cases.resultTypes left right →
      Refuses r cases (.noCommonType left right "switch")

theorem checkOwned_eq_error : r.checkOwned cases = .error err ↔
    ∃ c x, r = .collection c ∧ FirstNot (·.Over c.source) cases.exprs x ∧ err = .foreignField x.text c.name := by
  cases r with
  | value e => exact iff_of_false nofun nofun
  | collection c =>
    have howned : ∀ x, c.checkOwned x = .error err ↔ ¬ x.Over c.source ∧ err = .foreignField x.text c.name := by
      intro x
      rw [← Collection.checkOwned_eq_ok (u := ())]
      unfold Collection.checkOwned
      rw [guard_eq_error, guard_eq_ok]
    simp only [checkOwned, Collection.checkAllOwned, forM_eq_error, Collection.checkOwned_eq_ok, howned]
    constructor
    · rintro ⟨x, hfirst, _, rfl⟩
      exact ⟨c, x, rfl, hfirst, rfl⟩
    · rintro ⟨_, x, ⟨⟩, hfirst, rfl⟩
      exact ⟨x, hfirst, hfirst.not, rfl⟩

theorem expectCase_eq_error : Checker.expectCount ⟨"switch"⟩ (!cases.isEmpty) "at least one case" 0 = .error err ↔
    cases.pairs = [] ∧ err = .argumentCount "switch" "at least one case" 0 :=
  Checker.expectCount_isEmpty_eq_error

theorem checkCondition_eq_error {x : Expr} : Expr.checkCondition r.case x = .error err ↔
    ¬ r.Admits x ∧ err = r.conditionError x := by
  cases r with
  | value e => exact Checker.checkCompatible_eq_error
  | collection c => exact guard_eq_error

theorem checkConditions_eq_error : Expr.checkConditions r.case cases.conditions = .error err ↔
    ∃ x, FirstNot r.Admits cases.conditions x
      ∧ err = r.conditionError x := by
  simp only [Expr.checkConditions, forM_eq_error, Expr.checkCondition_eq_ok, checkCondition_eq_error]
  constructor
  · rintro ⟨x, hfirst, _, herr⟩
    exact ⟨x, hfirst, herr⟩
  · rintro ⟨x, hfirst, herr⟩
    exact ⟨x, hfirst, hfirst.not, herr⟩

theorem resultTypes_ne_nil (h : cases.pairs ≠ []) : cases.resultTypes ≠ [] := by
  simp [Cases.resultTypes, Cases.thens, h]

theorem pairs_ne_nil_of_firstNot {P : Expr → Prop} {x : Expr} (h : FirstNot P cases.conditions x) :
    cases.pairs ≠ [] := by
  intro hnone
  exact h.ne_nil (congrArg (List.map Prod.fst) hnone)

/-- A call is refused for the first fault, check by check. -/
theorem switchType_eq_error : r.switchType cases = .error err ↔ r.Refuses cases err := by
  unfold switchType
  simp only [except_bind_eq_error, checkOwned_eq_ok, checkOwned_eq_error, expectCase_eq_ok, expectCase_eq_error,
    Expr.checkConditions_eq_ok, checkConditions_eq_error]
  constructor
  · rintro (⟨c, x, hr, hfirst, rfl⟩
      | ⟨_, howned, ⟨hnone, rfl⟩ | ⟨_, hnonempty, ⟨x, hfirst, rfl⟩ | ⟨_, hconditions, h⟩⟩⟩)
    · exact .foreign hr hfirst
    · exact .noCase howned hnone
    · exact .condition howned hfirst
    · obtain ⟨left, right, hpart, rfl⟩ := (Checker.commonType_eq_error (resultTypes_ne_nil hnonempty)).mp h
      exact .results howned hnonempty hconditions hpart
  · intro h
    cases h with
    | foreign hr hfirst => exact .inl ⟨_, _, hr, hfirst, rfl⟩
    | noCase howned hnone => exact .inr ⟨(), howned, .inl ⟨hnone, rfl⟩⟩
    | condition howned hfirst =>
      exact .inr ⟨(), howned, .inr ⟨(), pairs_ne_nil_of_firstNot hfirst, .inl ⟨_, hfirst, rfl⟩⟩⟩
    | results howned hnonempty hconditions hpart =>
      have herror := (Checker.commonType_eq_error (c := ⟨"switch"⟩) (resultTypes_ne_nil hnonempty)).mpr
        ⟨_, _, hpart, rfl⟩
      exact .inr ⟨(), howned, .inr ⟨(), hnonempty, .inr ⟨(), hconditions, herror⟩⟩⟩

/-! ## The outcome -/

/-- A switch on a value is never refused for parts that do not belong together. -/
theorem Refuses.category {e : Expr} (h : (value e).Refuses cases err) : err.category ≠ .expression := by
  cases h with
  | foreign hr _ => cases hr
  | noCase | condition | results => nofun

/-- A switch succeeds exactly if it accepts its cases, and the node is of the common type of all results. Otherwise
it is refused, for the first fault in the order of the checks, and a switch on a value never for parts that do not
belong together. -/
theorem switch_outcome [Hasher] (r : Receiver) (cases : Cases) (s : Supply) :
    (∀ t, (∃ made, r.switch cases s = .ok made ∧ made.1.type = t) ↔ r.Accepts cases t)
      ∧ (∀ err, r.switch cases s = .error err ↔ r.Refuses cases err)
      ∧ ∀ e err, r = .value e → r.switch cases s = .error err → err.category ≠ .expression := by
  have hrefuses : ∀ err, r.switch cases s = .error err ↔ r.Refuses cases err := by
    intro err
    rw [switch_eq, except_bind_eq_error, switchType_eq_error]
    simp
  refine ⟨fun t => ?_, hrefuses, fun e err hr h => ?_⟩
  · simp only [switch_eq, except_bind_eq_ok, switchType_eq_ok]
    constructor
    · rintro ⟨_, ⟨u, haccepts, ⟨⟩⟩, rfl⟩
      exact haccepts
    · intro haccepts
      exact ⟨_, ⟨t, haccepts, rfl⟩, rfl⟩
  · subst hr
    exact ((hrefuses err).mp h).category

end Receiver

/-! ### A shop -/

namespace Shop

/-- Whether an article is sold. -/
def sold : Expr := .node ⟨0⟩ 0 (.column "sold" ⟨1⟩) .boolean .sequence none []

/-- A column of another source. -/
def rate : Expr := .node ⟨1⟩ 0 (.column "rate" ⟨2⟩) (.float .double) .sequence none []

def three : Expr := .node ⟨2⟩ 0 (.literal (.int .w8 ⟨3, by decide⟩)) (.int .w8) .scalar none []

def gone : Expr := .node ⟨3⟩ 0 (.literal (.boolean false)) .boolean .scalar none []

def many : Expr := .node ⟨4⟩ 0 (.literal (.int .w16 ⟨300, by decide⟩)) (.int .w16) .scalar none []

def stock : Collection := ⟨"stock", ⟨1⟩, ⟨[("sold", .boolean)], by simp⟩, [sold]⟩

/-- A condition that is not boolean, a result of another source, and results without a common type. -/
def faulty : Cases := ⟨[(three, sold), (sold, rate)], none⟩

/-- A condition that is boolean, and a default of the type of the result. -/
def sound : Cases := ⟨[(sold, three)], some three⟩

theorem over_stock : sold.Over stock.source ∧ three.Over stock.source ∧ ¬ rate.Over stock.source := by
  simp only [← Collection.checkOwned_eq_ok (u := ())]
  exact ⟨rfl, rfl, nofun⟩

end Shop

open Shop in
/-- The same cases are refused for different faults, and other ones are accepted. -/
theorem Receiver.switch_outcome_shop :
    @switch .standard (.collection stock) faulty {} = .error (.foreignField "rate" "stock")
      ∧ @switch .standard (.value sold) faulty {} = .error (.noCommonType .boolean (.int .w8) "switch")
      ∧ ∃ made, @switch .standard (.collection stock) sound {} = .ok made ∧ made.1.type = .int .w8 := by
  let _ : Hasher := .standard
  obtain ⟨hsold, hthree, hrate⟩ := over_stock
  obtain ⟨_, hforeign, _⟩ := switch_outcome (.collection stock) faulty {}
  obtain ⟨_, hincomparable, _⟩ := switch_outcome (.value sold) faulty {}
  obtain ⟨haccepted, _⟩ := switch_outcome (.collection stock) sound {}
  have hrefused : (value sold).Refuses faulty ((value sold).conditionError three) := by
    refine .condition nofun ⟨[], [sold], rfl, nofun, ?_⟩
    rintro ⟨t, ht⟩
    cases ht
  have hfirst : (collection stock).Refuses faulty (.foreignField rate.text stock.name) :=
    .foreign rfl ⟨[three, sold, sold], [], rfl, by simp [hsold, hthree], hrate⟩
  have htext : rate.text = "rate" := by decide
  rw [htext] at hfirst
  refine ⟨(hforeign _).mpr hfirst, (hincomparable _).mpr hrefused, (haccepted _).mpr ⟨?_, nofun, ?_, rfl⟩⟩
  · rintro _ ⟨⟩
    simp [Cases.exprs, sound, hsold, hthree]
  · simp [Cases.conditions, sound, sold, Admits, case, ElementType.AdmittedBy]

end Columnar
