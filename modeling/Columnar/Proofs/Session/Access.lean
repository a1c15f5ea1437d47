import Columnar.Proofs.Expr.BinAccess
import Columnar.Proofs.Session.Typing

/-!
# `Proofs.Session.Access` — no access fails in a reachable session

How many operands a node has was fixed when it was made, and neither a new name nor interning changes that; and
the fields of a collection are as many as the entries of its schema. So what is taken by its place is there.

## Contents
- `Collection.col?`: a field, taken by its place.
- `Orders.asked`: a session of nodes whose parts are taken by their places.
- `reachable_access`: parts and texts of expressions, fields of collections, and edges of bins.
-/

namespace Columnar

/-- The field of a name, taken from the place that the schema gives. -/
def Collection.col? (c : Collection) (name : String) : Guarded Expr :=
  match c.schema.indexOf? name with
  | some i => Guarded.access c.fields[i]?
  | none => Guarded.call (.error (.fieldNotFound name c.name))

/-- There is a field at every place that the schema gives. -/
theorem Collection.Sound.col?_eq {catalog : Catalog} {heap : List Expr} {c : Collection}
    (h : c.Sound catalog heap) (name : String) : c.col? name = Guarded.call (c.col name) := by
  unfold col? col
  cases hindex : c.schema.indexOf? name with
  | none => rfl
  | some i =>
    obtain ⟨t, hentry⟩ := Schema.indexOf?_eq_some_iff.mp hindex
    obtain ⟨e, he, _⟩ := getElem?_of_forall₂ h.labels hentry
    simp only [Option.bind_some, he]
    rfl

/-! ## A session of questions -/

namespace Orders

/-- Whether the state of an order is one of two. -/
def among : Expr := .node ⟨6⟩ 0 (.membership false) .boolean .sequence none [paid, no 1, no 2]

/-- A switch on the state of an order, with two conditions, their results and a default. -/
def chosen : Expr :=
  .node ⟨7⟩ 0 (.switch true true) .boolean .sequence none [paid, no 1, among, among, paid, no 1]

def four : Expr := .node ⟨8⟩ 0 (.literal (.int .w8 ⟨4, by decide⟩)) (.int .w8) .scalar none []

/-- The ends of one bin. -/
def ends : List Value := [.int .w8 ⟨0, by decide⟩, .int .w8 ⟨5, by decide⟩]

def binned : Expr :=
  .node ⟨9⟩ 0 (.cut ⟨ends, ["(0, 5]"], true, false, false, false⟩) .string .scalar none [four]

/-- A membership, a switch that it is a part of, and a number. -/
def asked : Session where
  supply := ⟨9, 2, 0⟩
  exprs := [four, chosen, among, settled 5 (no 4) none, settled 3 (no 2) none, no 1]
  collections := [orders]
  catalog := [(⟨1⟩, schema)]

theorem asked_reachable : @Session.Reachable collide asked := by
  let _ : Hasher := collide
  have hpaid : ∀ {s : Session}, s.collections = [orders] → s.Has paid :=
    fun h => .field (h ▸ List.mem_cons_self) List.mem_cons_self
  have hamong : Session.Reachable
      { filled with supply := ⟨7, 2, 0⟩, exprs := among :: filled.exprs } := by
    have hliteral : filled.Has (no 2) :=
      .operand (.returned (List.mem_cons_of_mem _ List.mem_cons_self)) (List.mem_cons_of_mem _ List.mem_cons_self)
    refine .step filled_reachable (.construct (.membership paid false [no 1, no 2]) ?_ rfl)
    simp only [Construction.arguments, List.forall_mem_cons]
    exact ⟨hpaid rfl, .returned (by simp [filled]), hliteral, nofun⟩
  have hchosen : Session.Reachable
      { filled with supply := ⟨8, 2, 0⟩, exprs := chosen :: among :: filled.exprs } := by
    refine .step hamong (.construct (.switch paid ⟨[(no 1, among), (among, paid)], some (no 1)⟩) ?_ rfl)
    -- every argument is the column, the literal or the membership
    intro a ha
    simp only [Construction.arguments, Cases.exprs, List.flatMap_cons, List.flatMap_nil, Option.toList_some,
      List.cons_append, List.nil_append, List.mem_cons, List.not_mem_nil, or_false] at ha
    rcases ha with rfl | rfl | rfl | rfl | rfl | rfl
    · exact hpaid rfl
    · exact .returned (by simp [filled])
    · exact .returned List.mem_cons_self
    · exact .returned List.mem_cons_self
    · exact hpaid rfl
    · exact .returned (by simp [filled])
  exact .step hchosen (.construct (.literal (.int .w8 ⟨4, by decide⟩)) nofun rfl)

end Orders

namespace Session

/-- In every reachable session, every access is to a place that is there. In every node of an expression within
reach, the operands of a switch are those of a value and a default, if it has them, and an even number of others,
and all parts of the node and its text are what lists of any length would give. Every name that the schema of a
collection has is the name of a field. And a call that sorts into bins answers for every expression, all edges and
all options as it does without accesses that fail. -/
theorem reachable_access [Hasher] {s : Session} (h : Reachable s) :
    (∀ e, s.Has e → ∀ n ∈ e.walk,
      (∀ hasCase hasDefault, n.kind = .switch hasCase hasDefault →
        ∃ pairs, Branches.layout? hasCase hasDefault n.operands.length = some (hasCase.toNat, pairs))
      ∧ n.candidates? = some n.candidates ∧ n.branches? = some n.branches ∧ n.text? = some n.text)
    ∧ (∀ c ∈ s.collections, ∀ name, c.col? name = Guarded.call (c.col name))
    ∧ ∀ (e : Expr) edges o supply, e.cut? edges o supply = Guarded.call (e.cut edges o supply) := by
  obtain ⟨heap, hsound⟩ := h.sound
  refine ⟨?_, fun c hc name => (hsound.collections_sound c hc).col?_eq name, Expr.cut?_eq⟩
  intro e he n hn
  have htakes : ∀ m ∈ heap, m.kind.Takes m.operands.length :=
    fun m hm => (hsound.history.wellTyped m hm).takes
  have hmem := hsound.history.walk_subset (hsound.has_mem he) hn
  refine ⟨?_, Expr.candidates?_eq (htakes n hmem), Expr.branches?_eq (htakes n hmem), ?_⟩
  · intro hasCase hasDefault hkind
    have hswitch := htakes n hmem
    rw [hkind] at hswitch
    obtain ⟨pairs, _, hlength⟩ := hswitch
    exact ⟨pairs, Branches.layout?_eq hlength⟩
  · exact Expr.text?_eq fun m hm => htakes m (hsound.history.walk_subset hmem hm)

/-- A membership in a switch, the parts of the switch, the texts of both and the field of a name are found at their
places, and so are the edges of a bin. -/
theorem reachable_access_orders : @Reachable Orders.collide Orders.asked
    ∧ Orders.asked.Has Orders.chosen
    ∧ Orders.among ∈ Orders.chosen.walk
    ∧ Orders.among.candidates? = some [Orders.no 1, Orders.no 2]
    ∧ (∃ pairs, Branches.layout? true true Orders.chosen.operands.length = some (1, pairs))
    ∧ Orders.chosen.branches? = some ⟨some Orders.paid, [Orders.no 1, Orders.among], [Orders.among, Orders.paid],
        some (Orders.no 1)⟩
    ∧ Orders.chosen.text?
      = some "switch(paid, false => isin(paid, [false, false]), isin(paid, [false, false]) => paid, default => false)"
    ∧ Orders.orders.col? "paid" = Guarded.call (.ok Orders.paid)
    ∧ @Expr.cut? Orders.collide Orders.four Orders.ends {} ⟨9, 2, 0⟩
      = Guarded.call (.ok (Orders.binned, ⟨10, 2, 0⟩)) := by
  have hhas : Orders.asked.Has Orders.chosen := .returned (List.mem_cons_of_mem _ List.mem_cons_self)
  have hamong : Orders.among ∈ Orders.chosen.walk :=
    Expr.mem_walk_of_operand (o := Orders.among) (by simp [Orders.chosen]) (Expr.mem_walk_self _)
  have haccess := @reachable_access Orders.collide _ Orders.asked_reachable
  obtain ⟨hlayout, _, hbranches, htext⟩ := haccess.1 _ hhas _ (Expr.mem_walk_self _)
  obtain ⟨_, hcandidates, _⟩ := haccess.1 _ hhas _ hamong
  have hbins : Expr.makeBins ⟨"cut"⟩ Orders.ends {} = .ok ⟨Orders.ends, ["(0, 5]"], true, false, false, false⟩ := by
    decide +kernel
  have hcut : @Expr.cut Orders.collide Orders.four Orders.ends {} ⟨9, 2, 0⟩ = .ok (Orders.binned, ⟨10, 2, 0⟩) :=
    (@Expr.cut_eq_ok Orders.collide ..).mpr ⟨rfl, _, hbins, rfl⟩
  refine ⟨Orders.asked_reachable, hhas, hamong, hcandidates, hlayout true true rfl, hbranches, ?_,
    haccess.2.1 _ List.mem_cons_self "paid", (haccess.2.2 ..).trans (congrArg Guarded.call hcut)⟩
  rw [htext]
  decide

end Session

end Columnar
