import Columnar.Expr.Query
import Mathlib.Tactic.ByContra

/-!
# `Proofs.Expr.Typing` — the typing rules of nodes

A node is checked against its operands once, when it is made, and all that the check sees of an operand is
its *signature*: its type and its shape. This module states the rule of every kind as a judgement
`Kind.Typed k operands result` on signatures alone, so that it carries over to any operands that have the
same signatures.

## Contents
- `Signature`, `Expr.signature`: type and shape.
- `Kind.Typed`: one rule per kind of node (a mapping has one per axis).
- `Expr.WellTyped`: a node obeys the rule of its kind.
- `Kind.Typed.shape_eq_sequence_iff`: what all rules say about shapes, in one statement.
-/

namespace Columnar

/-- What the checks of a construction see of an expression. -/
structure Signature where
  type : ElementType
  shape : Shape
  deriving DecidableEq, Repr

/-- The type and the shape of an expression. -/
def Expr.signature (e : Expr) : Signature := ⟨e.type, e.shape⟩

@[simp] theorem Expr.type_signature (e : Expr) : e.signature.type = e.type := rfl
@[simp] theorem Expr.shape_signature (e : Expr) : e.signature.shape = e.shape := rfl

/-- Two types have a common type. -/
def ElementType.Promotable (a b : ElementType) : Prop := ∃ t, a.promote b = some t

/-- What the condition of a switch must be: of a type that can be compared with the value of the switch, or
boolean where there is no such value. -/
def ElementType.AdmittedBy (condition : ElementType) (case : Option ElementType) : Prop :=
  match case with
  | some value => value.Promotable condition
  | none => condition = .boolean

/-- The typing rules: over operands of the given signatures, a node of the kind may have the signature at
the end. -/
inductive Kind.Typed : Kind → List Signature → Signature → Prop
  | column {name source t} : Typed (.column name source) [] ⟨t, .sequence⟩
  | literal {v} : Typed (.literal v) [] ⟨v.type, .scalar⟩
  | unary {op a t} : op.output a.type = some t → Typed (.unary op) [a] ⟨t, a.shape⟩
  | binary {op a b t} : op.output a.type b.type = some t →
      Typed (.binary op) [a, b] ⟨t, .combine [a.shape, b.shape]⟩
  | reduce {op a t} : op.output a.type = some t → Typed (.reduce op) [a] ⟨t, .scalar⟩
  /-- The value that stands in is single, and promotes to the type of what it stands in for. -/
  | fillMissing {a b} : b.shape = .scalar → a.type.promote b.type = some a.type →
      Typed .fillMissing [a, b] a
  /-- There is a candidate, and every one is a single value of a type that can be compared. -/
  | membership {negated a cs} : cs ≠ [] →
      (∀ c ∈ cs, c.shape = .scalar ∧ a.type.Promotable c.type) →
      Typed (.membership negated) (a :: cs) ⟨.boolean, a.shape⟩
  | between {inclusive a b c t} : ElementType.promoteAll [a.type, b.type, c.type] = some t →
      Typed (.between inclusive) [a, b, c] ⟨.boolean, .combine [a.shape, b.shape, c.shape]⟩
  | conditional {c a b t} : c.type = .boolean → a.type.promote b.type = some t →
      Typed .conditional [c, a, b] ⟨t, .combine [c.shape, a.shape, b.shape]⟩
  /-- There are as many results as conditions, and one at least. -/
  | switch {n t} {b : Branches Signature} :
      1 ≤ n → b.conditions.length = n → b.thens.length = n →
      (∀ c ∈ b.conditions, c.type.AdmittedBy (b.case.map Signature.type)) →
      ElementType.promoteAll ((b.thens ++ b.default.toList).map Signature.type) = some t →
      Typed (.switch b.case.isSome b.default.isSome) b.toOperands
        ⟨t, .combine (b.toOperands.map Signature.shape)⟩
  | cut {bins a} : a.type.isNumeric = true → Typed (.cut bins) [a] ⟨.string, a.shape⟩
  | cast {a t} : a.type.canCastTo t = true → t ≠ a.type → Typed .cast [a] ⟨t, a.shape⟩
  | mapField {f a t} : Typed (.map ⟨f, .column, none⟩) [a] ⟨t, a.shape⟩
  | mapRow {f i as t} : as ≠ [] →
      Typed (.map ⟨f, .row, i⟩) as ⟨t, .combine (as.map Signature.shape)⟩

/-- A node obeys the rule of its kind. -/
def Expr.WellTyped (e : Expr) : Prop := e.kind.Typed (e.operands.map Expr.signature) e.signature

/-- The same parts with something else in place of each expression. -/
def Branches.map {α β : Type} (f : α → β) (b : Branches α) : Branches β :=
  ⟨b.case.map f, b.conditions.map f, b.thens.map f, b.default.map f⟩

theorem Branches.toOperands_map {α β : Type} (f : α → β) (b : Branches α) :
    (b.map f).toOperands = b.toOperands.map f := by
  obtain ⟨case, conditions, thens, default⟩ := b
  simp only [map, toOperands, List.map_append]
  cases case <;> cases default <;> rfl

/-- Whether nodes of the kind make one value out of all the values of their operand. -/
def Kind.isReduction : Kind → Bool
  | reduce _ => true
  | _ => false

/-! ## Shapes -/

theorem Shape.combine_eq_sequence_iff {shapes : List Shape} :
    combine shapes = sequence ↔ sequence ∈ shapes := by
  constructor
  · intro h
    by_contra hn
    have hall : ∀ s ∈ shapes, s = scalar := by
      intro s hs
      cases s with
      | scalar => rfl
      | sequence => exact absurd hs hn
    rw [combine_eq_scalar_iff.mpr hall] at h
    cases h
  · intro h
    cases hc : combine shapes with
    | sequence => rfl
    | scalar => exact absurd (combine_eq_scalar_iff.mp hc _ h) (by decide)

/-- The rules agree on shapes: a node yields one value per row exactly if it is a column, or is no
reduction and has an operand that does so. The rules that copy the shape of one operand can agree because
they demand single values of the others. -/
theorem Kind.Typed.shape_eq_sequence_iff {k : Kind} {ops : List Signature} {r : Signature}
    (h : k.Typed ops r) :
    r.shape = .sequence ↔ k.source?.isSome = true
      ∨ (k.isReduction = false ∧ ∃ o ∈ ops, o.shape = .sequence) := by
  cases h with
  | column => simp [source?]
  | literal => simp [source?]
  | reduce _ => simp [source?, isReduction]
  | unary _ | cut _ | cast _ _ | mapField => simp [source?, isReduction]
  | binary _ | between _ | conditional _ _ =>
    rw [Shape.combine_eq_sequence_iff]
    simp [source?, isReduction, eq_comm]
  | fillMissing hb _ => simp [source?, isReduction, hb]
  | @membership _ a cs _ hcs =>
    have hnone : ¬ ∃ c ∈ cs, c.shape = .sequence := by
      rintro ⟨c, hc, hseq⟩
      rw [(hcs c hc).1] at hseq
      cases hseq
    simp only [List.mem_cons, exists_eq_or_imp, or_iff_left hnone, source?, isReduction]
    simp
  | switch _ _ _ _ _ | mapRow _ =>
    rw [Shape.combine_eq_sequence_iff]
    simp [source?, isReduction]

end Columnar
