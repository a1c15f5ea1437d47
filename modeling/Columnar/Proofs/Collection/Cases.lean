import Columnar.Proofs.Collection.Switch
import Columnar.Proofs.Expr.Access

/-!
# `Proofs.Collection.Cases` — a switch keeps its cases, however they are written

Cases are written in one list, in pairs, or one after the other, and come to the same pairs. A switch lays them out
in the operands of its node. Conditions and results are as many, so they are found there again by their number, with
or without a value in front of them and a default behind.

## Contents
- `pairUp_flatMap`, `flatMap_pairUp`: pairs in one list, and back.
- `Cases.ofFlat_eq_ok`, `Cases.ofFlat_eq_error`: lists that are taken for cases.
- `Cases.Style`, `Cases.written`: the ways to write cases.
- `Receiver.branches_switchNode`, `Receiver.same_switchNode`: the parts of the node, and nodes of the same cases.
- `Receiver.switch_keeps_cases`: cases that are written, and the switch of them.
-/

namespace Columnar

namespace Cases

variable {cases : Cases} {items : List Expr} {err : BuildError}

/-! ## Lists in which conditions and results take turns -/

theorem pairUp_flatMap (pairs : List (Expr × Expr)) : pairUp (pairs.flatMap fun p => [p.1, p.2]) = pairs := by
  induction pairs with
  | nil => rfl
  | cons p pairs ih =>
    show p :: pairUp (pairs.flatMap fun p => [p.1, p.2]) = p :: pairs
    rw [ih]

theorem length_flatMap (pairs : List (Expr × Expr)) :
    (pairs.flatMap fun p => [p.1, p.2]).length = 2 * pairs.length := by
  simp [List.length_flatMap, Nat.mul_comm]

/-- Pairing up drops nothing where every condition has a result. -/
theorem flatMap_pairUp (h : items.length % 2 = 0) : ((pairUp items).flatMap fun p => [p.1, p.2]) = items := by
  induction items using pairUp.induct with
  | case1 c t rest ih =>
    have hrest : rest.length % 2 = 0 := by
      simp only [List.length_cons] at h
      omega
    rw [pairUp, List.flatMap_cons, ih hrest]
    rfl
  | case2 items hshort =>
    match items, hshort with
    | [], _ => rfl
    | [_], _ => cases h
    | c :: t :: rest, hshort => exact absurd rfl (hshort c t rest)

theorem ofFlat_eq : ofFlat items = Checker.expectCount ⟨"switch"⟩ (items.length % 2 == 0)
    "condition and result pairs" items.length >>= fun _ => .ok (ofPairs (pairUp items)) := rfl

/-- A list is taken for the pairs that it is made of. -/
theorem ofFlat_eq_ok :
    ofFlat items = .ok cases ↔ items = (cases.pairs.flatMap fun p => [p.1, p.2]) ∧ cases.default = none := by
  rw [ofFlat_eq, except_bind_eq_ok]
  simp only [Checker.expectCount_eq_ok, beq_iff_eq]
  constructor
  · rintro ⟨_, heven, ⟨⟩⟩
    exact ⟨(flatMap_pairUp heven).symm, rfl⟩
  · obtain ⟨pairs, default⟩ := cases
    rintro ⟨rfl, rfl⟩
    refine ⟨(), ?_, ?_⟩
    · rw [length_flatMap, Nat.mul_mod_right]
    · rw [pairUp_flatMap]
      rfl

/-- A list is refused exactly if a condition has no result. -/
theorem ofFlat_eq_error : ofFlat items = .error err
    ↔ items.length % 2 = 1 ∧ err = .argumentCount "switch" "condition and result pairs" items.length := by
  rw [ofFlat_eq, except_bind_eq_error, Checker.expectCount_eq_error]
  simp

/-! ## Ways to write cases -/

/-- Cases are written in one list, in pairs, or one after the other. -/
inductive Style
  | flat
  | paired
  | chained

/-- Pairs that are written in one of these ways. -/
def written (pairs : List (Expr × Expr)) : Style → Except BuildError Cases
  | .flat => ofFlat (pairs.flatMap fun p => [p.1, p.2])
  | .paired => .ok (ofPairs pairs)
  | .chained => .ok (pairs.foldl (fun cases p => cases.add p.1 p.2) {})

/-- Cases with the default that is given. -/
def orElse (cases : Cases) : Option Expr → Cases
  | some value => cases.otherwise value
  | none => cases

theorem foldl_add (pairs : List (Expr × Expr)) (cases : Cases) :
    pairs.foldl (fun cases p => cases.add p.1 p.2) cases = { cases with pairs := cases.pairs ++ pairs } := by
  induction pairs generalizing cases with
  | nil => simp
  | cons p pairs ih =>
    rw [List.foldl_cons, ih]
    simp [add]

theorem written_eq (pairs : List (Expr × Expr)) (style : Style) : written pairs style = .ok (ofPairs pairs) := by
  cases style with
  | flat => exact ofFlat_eq_ok.mpr ⟨rfl, rfl⟩
  | paired => rfl
  | chained =>
    unfold written
    rw [foldl_add]
    rfl

theorem orElse_ofPairs (pairs : List (Expr × Expr)) (default : Option Expr) :
    (ofPairs pairs).orElse default = ⟨pairs, default⟩ := by
  cases default <;> rfl

end Cases

namespace Receiver

section

variable [Hasher] {r : Receiver} {cases : Cases} {t : ElementType} {s : Supply}

/-! ## The node of a switch -/

/-- All parts are found again in the node. -/
theorem branches_switchNode : (r.switchNode cases t s).1.branches = cases.branches r.case :=
  (cases.branches r.case).ofOperands_toOperands (by simp [Cases.branches, Cases.conditions, Cases.thens])

/-- So they are by ways that can fail. -/
theorem branches?_switchNode (h : cases.pairs ≠ []) :
    (r.switchNode cases t s).1.branches? = some (cases.branches r.case) := by
  rw [← branches_switchNode (t := t) (s := s)]
  refine Expr.branches?_eq ⟨cases.pairs.length, List.length_pos_of_ne_nil h, ?_⟩
  show (cases.branches r.case).toOperands.length = _
  simp only [Branches.toOperands, Cases.branches, Cases.conditions, Cases.thens, List.length_append, List.length_map]
  cases r.case <;> cases cases.default <;> simp <;> omega

/-- Nodes of the same cases are equal, whatever identities they draw. -/
theorem same_switchNode (s s' : Supply) : (r.switchNode cases t s).1.same (r.switchNode cases t s').1 = true := by
  refine Expr.same_iff.mpr (.inr ⟨rfl, rfl, rfl, Kind.same_refl _, rfl, ?_⟩)
  exact List.forall₂_same.mpr fun o _ => o.same_refl

/-- The switch of cases that are written in one of the ways. -/
def switchWritten (r : Receiver) (style : Cases.Style) (pairs : List (Expr × Expr)) (default : Option Expr) :
    Build Expr := do
  let cases ← Cases.written pairs style
  r.switch (cases.orElse default)

theorem switchWritten_eq (style : Cases.Style) (pairs : List (Expr × Expr)) (default : Option Expr) :
    r.switchWritten style pairs default s = r.switch ⟨pairs, default⟩ s := by
  unfold switchWritten
  rw [Build.check_eq, Cases.written_eq]
  show r.switch ((Cases.ofPairs pairs).orElse default) s = _
  rw [Cases.orElse_ofPairs]

/-- All ways to write cases come to the same pairs. The node of their switch gives back the value, the conditions, the
results and the default as they were given, and none of these is taken from a place that is not there. Written in two
ways, the cases have equal switches, or are refused for the same reason. A list is taken for cases exactly if it is
made of pairs, and refused exactly if its length is odd. -/
theorem switch_keeps_cases (r : Receiver) (pairs : List (Expr × Expr)) (default : Option Expr) :
    (∀ style, Cases.written pairs style = .ok (Cases.ofPairs pairs))
      ∧ (∀ style s made, r.switchWritten style pairs default s = .ok made →
          made.1.branches = ⟨r.case, pairs.map Prod.fst, pairs.map Prod.snd, default⟩
            ∧ made.1.branches? = some made.1.branches)
      ∧ (∀ style style' s s',
          (∃ made made', r.switchWritten style pairs default s = .ok made
            ∧ r.switchWritten style' pairs default s' = .ok made' ∧ made.1.same made'.1 = true)
          ∨ ∃ err, r.switchWritten style pairs default s = .error err
            ∧ r.switchWritten style' pairs default s' = .error err)
      ∧ (∀ items cases, Cases.ofFlat items = .ok cases
          ↔ items = (cases.pairs.flatMap fun p => [p.1, p.2]) ∧ cases.default = none)
      ∧ ∀ items err, Cases.ofFlat items = .error err
          ↔ items.length % 2 = 1 ∧ err = .argumentCount "switch" "condition and result pairs" items.length := by
  refine ⟨Cases.written_eq pairs, fun style s made h => ?_, fun style style' s s' => ?_,
    fun _ _ => Cases.ofFlat_eq_ok, fun _ _ => Cases.ofFlat_eq_error⟩
  · rw [switchWritten_eq, switch_eq, except_bind_eq_ok] at h
    obtain ⟨t, htype, ⟨⟩⟩ := h
    have haccepts := switchType_eq_ok.mp htype
    rw [branches?_switchNode haccepts.nonempty, branches_switchNode]
    exact ⟨rfl, rfl⟩
  · rw [switchWritten_eq, switchWritten_eq, switch_eq, switch_eq]
    -- the checks come to the same from any supply
    cases r.switchType ⟨pairs, default⟩ with
    | ok t => exact .inl ⟨_, _, rfl, rfl, same_switchNode s s'⟩
    | error err => exact .inr ⟨err, rfl, rfl⟩

end

open Shop in
/-- A switch on a value, with two pairs and a default: the list and the pairs have equal switches, and the parts come
back in order from behind the value. -/
theorem switch_keeps_cases_shop : ∃ made made',
    @switchWritten .standard (.value sold) .flat [(sold, three), (gone, many)] (some three) {} = .ok made
      ∧ @switchWritten .standard (.value sold) .paired [(sold, three), (gone, many)] (some three) ⟨7, 1, 0⟩ = .ok made'
      ∧ made.1.same made'.1 = true
      ∧ made.1.operands = [sold, sold, gone, three, many, three]
      ∧ made.1.branches = ⟨some sold, [sold, gone], [three, many], some three⟩
      ∧ made.1.branches? = some ⟨some sold, [sold, gone], [three, many], some three⟩ := by
  let _ : Hasher := .standard
  obtain ⟨_, hkept, hequal, _⟩ := switch_keeps_cases (.value sold) [(sold, three), (gone, many)] (some three)
  have hmade : switchWritten (.value sold) .flat [(sold, three), (gone, many)] (some three) {}
      = .ok ((Receiver.value sold).switchNode ⟨[(sold, three), (gone, many)], some three⟩ (.int .w16) {}) := rfl
  obtain ⟨hbranches, hfound⟩ := hkept .flat {} _ hmade
  rcases hequal .flat .paired {} ⟨7, 1, 0⟩ with ⟨made, made', hflat, hpaired, hsame⟩ | ⟨err, hflat, _⟩
  · rw [hmade] at hflat
    cases hflat
    exact ⟨_, made', hmade, hpaired, hsame, rfl, hbranches, hfound.trans (congrArg some hbranches)⟩
  · rw [hmade] at hflat
    cases hflat

end Receiver

end Columnar
