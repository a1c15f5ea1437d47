import Columnar.Cache
import Columnar.Collection.Apply
import Columnar.Expr.Cut
import Columnar.Proofs.Expr.Heap
import Mathlib.Logic.Function.Basic

/-!
# `Proofs.Session.Basic` — what can be reached through the public calls

A session is everything that the calls made so far have handed out, and the caches they have filled. A step is
one successful call, on arguments that are within reach; a refused call leaves nothing behind and is no step.
What holds of every `Reachable` session holds whatever calls are made, in whatever order and however often.

## Contents
- `Construction`: the calls that make an expression from expressions, with their arguments.
- `Interning`: a cache, and what was interned into it since it was last cleared.
- `Session`, `Session.Has`: what has been handed out, and what is within reach.
- `Session.Step`, `Session.Reachable`: one call, and any number of calls.
- `Orders.session`: a session that some calls lead to.
-/

namespace Columnar

/-! ## Calls that make expressions -/

/-- A call that makes an expression, with its arguments. -/
inductive Construction
  | literal (v : Value)
  | rename (e : Expr) (name : String)
  | binary (e : Expr) (op : BinaryOperator) (rhs : Expr)
  | unary (e : Expr) (op : UnaryOperator)
  | reduce (e : Expr) (op : Reduction)
  | cast (e : Expr) (target : ElementType)
  | isNull (e : Expr)
  | notNull (e : Expr)
  | fillMissing (e value : Expr)
  | membership (e : Expr) (negated : Bool) (candidates : List Expr)
  | between (e lower upper : Expr) (inclusive : Bool)
  | conditional (e ifTrue ifFalse : Expr)
  | switch (e : Expr) (cases : Cases)
  | cut (e : Expr) (edges : List Value) (o : BinOptions)

namespace Construction

/-- The expressions that a call is made on. -/
def arguments : Construction → List Expr
  | literal _ => []
  | rename e _ | unary e _ | reduce e _ | cast e _ | isNull e | notNull e | cut e _ _ => [e]
  | binary e _ rhs => [e, rhs]
  | fillMissing e value => [e, value]
  | membership e _ candidates => e :: candidates
  | between e lower upper _ => [e, lower, upper]
  | conditional e ifTrue ifFalse => [e, ifTrue, ifFalse]
  | switch e cases => e :: cases.exprs

/-- What the call does. -/
def build [Hasher] : Construction → Build Expr
  | literal v => Expr.literal v
  | rename e name => e.rename name
  | binary e op rhs => e.binary op rhs
  | unary e op => e.unary op
  | reduce e op => e.reduce op
  | cast e target => e.cast target
  | isNull e => e.isNull
  | notNull e => e.notNull
  | fillMissing e value => e.fillMissing value
  | membership e negated candidates => e.membership negated candidates
  | between e lower upper inclusive => e.between lower upper inclusive
  | conditional e ifTrue ifFalse => e.conditional ifTrue ifFalse
  | switch e cases => e.switch cases
  | cut e edges o => e.cut edges o

end Construction

/-! ## Sessions -/

/-- A cache, and what has been interned into it since it was last cleared. -/
structure Interning where
  cache : Cache := {}
  /-- Every expression that was interned and what came back for it, the latest first. -/
  log : List (Expr × Expr) := []

/-- Everything that calls have handed out so far. -/
structure Session where
  supply : Supply := {}
  exprs : List Expr := []
  collections : List Collection := []
  functions : List MapFunction := []
  /-- The sources, each with the schema it was made with. -/
  catalog : Catalog := []
  /-- Caches by number; all are empty at first. -/
  caches : Nat → Interning := fun _ => {}

namespace Session

/-- The expressions within reach: those that a call has returned, the fields of collections, and the operands
of any expression within reach. -/
inductive Has (s : Session) : Expr → Prop
  | returned {e} : e ∈ s.exprs → Has s e
  | field {c e} : c ∈ s.collections → e ∈ c.fields → Has s e
  | operand {e o} : Has s e → o ∈ e.operands → Has s o

variable [Hasher]

/-- One successful call. -/
inductive Step : Session → Session → Prop
  | construct {s e supply} (k : Construction) : (∀ a ∈ k.arguments, s.Has a) →
      k.build s.supply = .ok (e, supply) →
      Step s { s with supply, exprs := e :: s.exprs }
  | function {s f supply} (name : String) (call : Row → Option Value) :
      Build.function name call s.supply = .ok (f, supply) →
      Step s { s with supply, functions := f :: s.functions }
  | source {s c supply} (name : String) (schema : Schema) :
      Collection.make name schema s.supply = .ok (c, supply) →
      Step s { s with
        supply, collections := c :: s.collections, catalog := (c.source, schema) :: s.catalog }
  | select {s c r} (refs : List FieldRef) : c ∈ s.collections →
      (∀ e, FieldRef.given e ∈ refs → s.Has e) → c.select refs = .ok r →
      Step s { s with collections := r :: s.collections }
  | switch {s c e supply} (cases : Cases) : c ∈ s.collections → (∀ x ∈ cases.exprs, s.Has x) →
      c.switch cases s.supply = .ok (e, supply) →
      Step s { s with supply, exprs := e :: s.exprs }
  | applyToSequence {s c f e supply} (o : ApplyOptions) : c ∈ s.collections → f ∈ s.functions →
      c.apply f o s.supply = .ok (.sequence e, supply) →
      Step s { s with supply, exprs := e :: s.exprs }
  | applyToCollection {s c f r supply} (o : ApplyOptions) : c ∈ s.collections → f ∈ s.functions →
      c.apply f o s.supply = .ok (.collection r, supply) →
      Step s { s with supply, collections := r :: s.collections }
  | intern {s e r cache supply} (i : Nat) : s.Has e →
      (s.caches i).cache.intern e s.supply = (r, cache, supply) →
      Step s { s with
        supply, exprs := r :: s.exprs
        caches := Function.update s.caches i ⟨cache, (e, r) :: (s.caches i).log⟩ }
  | clear {s} (i : Nat) :
      Step s { s with caches := Function.update s.caches i ⟨(s.caches i).cache.clear, []⟩ }

/-- The sessions that some calls lead to. -/
inductive Reachable : Session → Prop
  | start : Reachable {}
  | step {s s'} : Reachable s → Step s s' → Reachable s'

end Session

/-! ## A session of orders -/

namespace Orders

/-- A hash function that tells nothing apart. -/
abbrev collide : Hasher := ⟨fun _ => 0⟩

def schema : Schema := ⟨[("paid", .boolean)], by simp⟩

def paid : Expr := .node ⟨0⟩ 0 (.column "paid" ⟨1⟩) .boolean .sequence none []

def no (number : Nat) : Expr := .node ⟨number⟩ 0 (.literal (.boolean false)) .boolean .scalar none []

/-- Whether an order is paid, with a literal where that is missing. -/
def settled (number : Nat) (literal : Expr) (name : Option String) : Expr :=
  .node ⟨number⟩ 0 .fillMissing .boolean .sequence name [paid, literal]

def orders : Collection := ⟨"orders", ⟨1⟩, schema, [paid]⟩

/-- The column beside its filled form. -/
def report : Collection :=
  ⟨"orders", ⟨1⟩, ⟨[("paid", .boolean), ("settled", .boolean)], by simp⟩,
    [paid, settled 7 (no 2) (some "settled")]⟩

/-- What has been interned once the first filled form was, and once the second was too: the same nodes. -/
def interned (second : Bool) : Interning :=
  ⟨⟨[paid, no 2, settled 3 (no 2) none]⟩,
    (if second then [(settled 5 (no 4) none, settled 3 (no 2) none)] else [])
      ++ [(settled 3 (no 2) none, settled 3 (no 2) none)]⟩

/-- Missing values of a column are filled twice in the same way. -/
def filled : Session where
  supply := ⟨6, 2, 0⟩
  exprs := [settled 5 (no 4) none, settled 3 (no 2) none, no 1]
  collections := [orders]
  catalog := [(⟨1⟩, schema)]

/-- Missing values of a column are filled twice in the same way, and both results are interned. What comes
back is given a name and chosen as a field beside the column. -/
def session : Session where
  supply := ⟨8, 2, 0⟩
  exprs := [settled 7 (no 2) (some "settled"), settled 3 (no 2) none, settled 3 (no 2) none,
    settled 5 (no 4) none, settled 3 (no 2) none, no 1]
  collections := [report, orders]
  catalog := [(⟨1⟩, schema)]
  caches := Function.update (Function.update (fun _ => {}) 0 (interned false)) 0 (interned true)

theorem filled_reachable : @Session.Reachable collide filled := by
  let _ : Hasher := collide
  have hmade : Session.Reachable
      { supply := ⟨1, 2, 0⟩, collections := [orders], catalog := [(⟨1⟩, schema)] } :=
    .step .start (.source "orders" schema rfl)
  have hno : Session.Reachable
      { supply := ⟨2, 2, 0⟩, exprs := [no 1], collections := [orders], catalog := [(⟨1⟩, schema)] } :=
    .step hmade (.construct (.literal (.boolean false)) nofun rfl)
  have hfirst : Session.Reachable
      { supply := ⟨4, 2, 0⟩, exprs := [settled 3 (no 2) none, no 1], collections := [orders],
        catalog := [(⟨1⟩, schema)] } := by
    refine .step hno (.construct (.fillMissing paid (no 1)) ?_ rfl)
    exact List.forall_mem_cons.mpr ⟨.field List.mem_cons_self List.mem_cons_self,
      List.forall_mem_singleton.mpr (.returned List.mem_cons_self)⟩
  refine .step hfirst (.construct (.fillMissing paid (no 1)) ?_ rfl)
  exact List.forall_mem_cons.mpr ⟨.field List.mem_cons_self List.mem_cons_self,
    List.forall_mem_singleton.mpr (.returned (by simp))⟩

theorem session_reachable : @Session.Reachable collide session := by
  let _ : Hasher := collide
  have hinterned : Session.Reachable
      { filled with
        exprs := settled 3 (no 2) none :: filled.exprs
        caches := Function.update (fun _ => {}) 0 (interned false) } :=
    .step filled_reachable (.intern 0 (.returned (List.mem_cons_of_mem _ List.mem_cons_self)) rfl)
  have hboth : Session.Reachable
      { filled with
        supply := ⟨7, 2, 0⟩
        exprs := settled 3 (no 2) none :: settled 3 (no 2) none :: filled.exprs
        caches := Function.update (Function.update (fun _ => {}) 0 (interned false)) 0
          (interned true) } :=
    .step hinterned (.intern 0 (.returned (List.mem_cons_of_mem _ List.mem_cons_self)) rfl)
  have hnamed : Session.Reachable { session with collections := [orders] } := by
    refine .step hboth (.construct (.rename (settled 3 (no 2) none) "settled") ?_ rfl)
    exact List.forall_mem_singleton.mpr (.returned List.mem_cons_self)
  refine .step hnamed (.select [.named "paid", .given (settled 7 (no 2) (some "settled"))]
    List.mem_cons_self ?_ rfl)
  intro e he
  rcases List.mem_cons.mp he with he | he
  · cases he
  · cases List.mem_singleton.mp he
    exact .returned List.mem_cons_self

end Orders

end Columnar
