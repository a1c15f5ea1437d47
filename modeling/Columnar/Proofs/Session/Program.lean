import Columnar.Proofs.Collection.Cases
import Columnar.Proofs.Expr.Query
import Columnar.Proofs.Session.Invariant

/-!
# `Proofs.Session.Program` — programs that make calls

A program has no numbers in its hands: it names its expressions, collections and functions by where it got them, and
chooses its next call by what the earlier ones have shown. What a call shows are texts, names, types, shapes,
payloads, answers to yes and no, and errors.

## Contents
- `Part`, `Place`, `Session.lookup`: how a program names the expressions within reach.
- `Operation.on`: calls that make expressions, apart from the expressions that they are made on.
- `Request`, `View`, `Reply`: a call with its arguments named, and what it shows.
- `Session.perform`, `Session.ask`, `Session.run`: one call, its reply, and a program.
- `exists_on`: every construction can be called.
- `perform_step`, `run_reachable`: a call is a step of the session, or leaves it as it is.
-/

namespace Columnar

/-! ## Places -/

/-- Queries that give expressions out of an expression. -/
inductive Part
  | operand
  | node
  | column
  | candidate
  | case
  | condition
  | result
  | default

/-- The expressions that a query gives, in order. -/
def Part.of : Part → Expr → List Expr
  | operand, e => e.operands
  | node, e => e.walk
  | column, e => e.columnRefs
  | candidate, e => e.candidates
  | case, e => e.branches.case.toList
  | condition, e => e.branches.conditions
  | result, e => e.branches.thens
  | default, e => e.branches.default.toList

/-- Where a program got an expression. -/
inductive Place
  /-- From a call, counted back from the latest. -/
  | returned (i : Nat)
  | field (collection i : Nat)
  | part (q : Part) (p : Place) (i : Nat)

/-- A field given by its name or by where an expression is. -/
inductive FieldPlace
  | named (name : String)
  | given (p : Place)

/-! ## Calls -/

/-- Cases from their expressions in a row, the default at the end if there is one. -/
def Cases.ofExprs (hasDefault : Bool) (es : List Expr) : Cases :=
  if hasDefault then ⟨pairUp es.dropLast, es.getLast?⟩ else ⟨pairUp es, none⟩

/-- A call that makes an expression, without the expressions that it is made on. -/
inductive Operation
  | literal (v : Value)
  | rename (name : String)
  | binary (op : BinaryOperator)
  | unary (op : UnaryOperator)
  | reduce (op : Reduction)
  | cast (target : ElementType)
  | isNull
  | notNull
  | fillMissing
  | membership (negated : Bool)
  | between (inclusive : Bool)
  | conditional
  | switch (hasDefault : Bool)
  | cut (edges : List Value) (o : BinOptions)

/-- The call on expressions, if they are as many as it takes. -/
def Operation.on : Operation → List Expr → Option Construction
  | literal v, [] => some (.literal v)
  | rename name, [e] => some (.rename e name)
  | binary op, [e, rhs] => some (.binary e op rhs)
  | unary op, [e] => some (.unary e op)
  | reduce op, [e] => some (.reduce e op)
  | cast target, [e] => some (.cast e target)
  | isNull, [e] => some (.isNull e)
  | notNull, [e] => some (.notNull e)
  | fillMissing, [e, value] => some (.fillMissing e value)
  | membership negated, e :: candidates => some (.membership e negated candidates)
  | between inclusive, [e, lower, upper] => some (.between e lower upper inclusive)
  | conditional, [e, ifTrue, ifFalse] => some (.conditional e ifTrue ifFalse)
  | switch hasDefault, e :: es => some (.switch e (.ofExprs hasDefault es))
  | cut edges o, [e] => some (.cut e edges o)
  | _, _ => none

/-- A call with its arguments named. Collections and functions are counted back from the latest. -/
inductive Request
  | construct (op : Operation) (args : List Place)
  | function (name : String) (call : Row → Option Value)
  | source (name : String) (schema : Schema)
  | col (c : Nat) (name : String)
  | select (c : Nat) (refs : List FieldPlace)
  | switch (c : Nat) (hasDefault : Bool) (args : List Place)
  | apply (c f : Nat) (o : ApplyOptions)
  | intern (cache : Nat) (p : Place)
  | clear (cache : Nat)
  | contains (cache : Nat) (p : Place)
  | size (cache : Nat)
  | view (p : Place)
  | same (p q : Place)
  | identical (p q : Place)

/-- What a program sees of an expression. -/
structure View where
  text : String
  type : ElementType
  shape : Shape
  name : Option String
  givenName : Option String
  kind : String
  literal : Option Value
  bins : Option Bins
  mapping : Option (String × Axis × Option Nat)
  /-- How many sources it refers to. -/
  sources : Nat
  /-- For every collection, whether its source is one of them. -/
  refersTo : List Bool

/-- What a call shows. -/
inductive Answer
  | expression (v : View)
  | collection (name : String) (schema : Schema) (fields : List View)
  | flag (b : Bool)
  | count (n : Nat)
  | done

/-- Why a call shows nothing: an argument is not where it is said to be, or the call is refused. -/
inductive Refusal
  | missing
  | error (e : BuildError)

abbrev Reply := Except Refusal Answer

/-- A program chooses its next call by the replies so far, or ends. -/
abbrev Program := List Reply → Option Request

/-- What is there, or else it is missing. -/
def found {α : Type} : Option α → Except Refusal α
  | some a => .ok a
  | none => .error .missing

/-- What a call gives, or else the reason why it is refused. -/
def called {α : Type} : Except BuildError α → Except Refusal α
  | .ok a => .ok a
  | .error e => .error (.error e)

namespace Session

/-- The expression at a place. -/
def lookup (s : Session) : Place → Except Refusal Expr
  | .returned i => found s.exprs[i]?
  | .field c i => do
    let c ← found s.collections[c]?
    found c.fields[i]?
  | .part q p i => do
    let e ← s.lookup p
    found (q.of e)[i]?

/-- The field that is meant. -/
def lookupField (s : Session) : FieldPlace → Except Refusal FieldRef
  | .named n => pure (.named n)
  | .given p => .given <$> s.lookup p

/-- What a program sees of an expression beside the collections that it has. -/
def view (s : Session) (e : Expr) : View where
  text := e.text
  type := e.type
  shape := e.shape
  name := e.name?
  givenName := e.givenName
  kind := e.kind.name
  literal := e.kind.literal?
  bins := e.kind.bins?
  mapping := e.kind.mapping?.map fun m => (m.function.name, m.axis, m.outputIndex)
  sources := e.sources.length
  refersTo := s.collections.map fun c => e.sources.contains c.source

/-- A session in which a call has made an expression. -/
def addExpr (s : Session) (e : Expr) (supply : Supply) : Answer × Session :=
  let s' := { s with supply, exprs := e :: s.exprs }
  (.expression (s'.view e), s')

/-- A session in which a call has made a collection. -/
def addCollection (s : Session) (c : Collection) (supply : Supply) (catalog : Catalog) : Answer × Session :=
  let s' := { s with supply, collections := c :: s.collections, catalog }
  (.collection c.name c.schema (c.fields.map s'.view), s')

/-- A session in which an expression has been interned into a cache. -/
def addInterned (s : Session) (i : Nat) (e : Expr) (r : Expr × Cache × Supply) : Answer × Session :=
  let caches := Function.update s.caches i ⟨r.2.1, (e, r.1) :: (s.caches i).log⟩
  { s with caches }.addExpr r.1 r.2.2

variable [Hasher]

/-- One call: what it shows, and the session behind it. -/
def perform (s : Session) : Request → Except Refusal (Answer × Session)
  | .construct op args => do
    let es ← args.mapM s.lookup
    let k ← found (op.on es)
    let r ← called (k.build s.supply)
    pure (s.addExpr r.1 r.2)
  | .function name call => do
    let r ← called (Build.function name call s.supply)
    pure (.done, { s with supply := r.2, functions := r.1 :: s.functions })
  | .source name schema => do
    let r ← called (Collection.make name schema s.supply)
    pure (s.addCollection r.1 r.2 ((r.1.source, schema) :: s.catalog))
  | .col c name => do
    let c ← found s.collections[c]?
    let e ← called (c.col name)
    pure (.expression (s.view e), s)
  | .select c refs => do
    let c ← found s.collections[c]?
    let refs ← refs.mapM s.lookupField
    let r ← called (c.select refs)
    pure (s.addCollection r s.supply s.catalog)
  | .switch c hasDefault args => do
    let c ← found s.collections[c]?
    let es ← args.mapM s.lookup
    let r ← called (c.switch (.ofExprs hasDefault es) s.supply)
    pure (s.addExpr r.1 r.2)
  | .apply c f o => do
    let c ← found s.collections[c]?
    let f ← found s.functions[f]?
    let r ← called (c.apply f o s.supply)
    match r.1 with
    | .sequence e => pure (s.addExpr e r.2)
    | .collection d => pure (s.addCollection d r.2 s.catalog)
  | .intern i p => do
    let e ← s.lookup p
    pure (s.addInterned i e ((s.caches i).cache.intern e s.supply))
  | .clear i =>
    pure (.done, { s with caches := Function.update s.caches i ⟨(s.caches i).cache.clear, []⟩ })
  | .contains i p => do
    let e ← s.lookup p
    pure (.flag ((s.caches i).cache.contains e), s)
  | .size i => pure (.count (s.caches i).cache.size, s)
  | .view p => do
    let e ← s.lookup p
    pure (.expression (s.view e), s)
  | .same p q => do
    let a ← s.lookup p
    let b ← s.lookup q
    pure (.flag (a.same b), s)
  | .identical p q => do
    let a ← s.lookup p
    let b ← s.lookup q
    pure (.flag (a.identical b), s)

/-- One call with its reply. A refused call leaves the session as it is. -/
def ask (s : Session) (r : Request) : Reply × Session :=
  match s.perform r with
  | .ok made => (.ok made.1, made.2)
  | .error refusal => (.error refusal, s)

/-- A program, for so many calls at most: the replies, and the session behind it. -/
def run (program : Program) : Nat → List Reply → Session → List Reply × Session
  | 0, replies, s => (replies, s)
  | n + 1, replies, s =>
    match program replies with
    | none => (replies, s)
    | some r => run program n (replies ++ [(s.ask r).1]) (s.ask r).2

end Session

/-! ## Reach -/

/-- The parts of a switch are operands of it. -/
theorem Expr.mem_operands_of_branches {e x : Expr} (hx : x ∈ e.branches.toOperands) : x ∈ e.operands := by
  unfold branches at hx
  cases hk : e.kind with
  | switch hasCase hasDefault =>
    simp only [hk, Branches.ofOperands, Branches.toOperands, List.mem_append, Option.mem_toList] at hx
    rcases hx with ((hx | hx) | hx) | hx
    · cases hasCase with
      | true => exact List.mem_of_mem_head? hx
      | false => cases hx
    · exact List.mem_of_mem_drop (List.mem_of_mem_take hx)
    · exact List.mem_of_mem_drop (List.mem_of_mem_take hx)
    · cases hasDefault with
      | true => exact List.mem_of_mem_getLast? hx
      | false => cases hx
  | _ => simp [hk, Branches.toOperands] at hx

theorem found_eq_ok {α : Type} {o : Option α} {a : α} : found o = .ok a ↔ o = some a := by
  cases o with
  | none => exact ⟨fun h => (nomatch h), fun h => (nomatch h)⟩
  | some b =>
    show Except.ok b = .ok a ↔ some b = some a
    rw [Except.ok.injEq, Option.some.injEq]

theorem called_eq_ok {α : Type} {x : Except BuildError α} {a : α} : called x = .ok a ↔ x = .ok a := by
  cases x with
  | error e => exact ⟨fun h => (nomatch h), fun h => (nomatch h)⟩
  | ok b =>
    show Except.ok b = .ok a ↔ Except.ok b = .ok a
    rw [Except.ok.injEq, Except.ok.injEq]

theorem mem_of_found {α : Type} {as : List α} {i : Nat} {a : α} (h : found as[i]? = .ok a) : a ∈ as :=
  List.mem_of_getElem? (found_eq_ok.mp h)

namespace Cases

theorem flatMap_pairUp_subset (es : List Expr) : ((pairUp es).flatMap fun p => [p.1, p.2]) ⊆ es := by
  induction es using pairUp.induct with
  | case1 c t rest ih =>
    rw [pairUp, List.flatMap_cons]
    exact List.cons_subset_cons _ (List.cons_subset_cons _ ih)
  | case2 es h =>
    rw [pairUp]
    · exact List.nil_subset _
    · exact h

/-- All cases can be written in a row. -/
theorem ofExprs_exprs (cases : Cases) : ofExprs cases.default.isSome cases.exprs = cases := by
  obtain ⟨pairs, default⟩ := cases
  unfold ofExprs exprs
  cases default with
  | none => simp [pairUp_flatMap]
  | some d => simp [pairUp_flatMap]

theorem exprs_ofExprs_subset (hasDefault : Bool) (es : List Expr) : (ofExprs hasDefault es).exprs ⊆ es := by
  unfold ofExprs exprs
  cases hasDefault with
  | false => simpa using flatMap_pairUp_subset es
  | true =>
    refine List.append_subset.mpr ⟨?_, fun d hd => List.mem_of_mem_getLast? (Option.mem_toList.mp hd)⟩
    exact List.Subset.trans (flatMap_pairUp_subset es.dropLast) (List.dropLast_subset es)

end Cases

namespace Operation

/-- Every construction is an operation on its arguments. -/
theorem exists_on (k : Construction) : ∃ op : Operation, op.on k.arguments = some k := by
  cases k with
  | literal v => exact ⟨.literal v, rfl⟩
  | rename e name => exact ⟨.rename name, rfl⟩
  | binary e op rhs => exact ⟨.binary op, rfl⟩
  | unary e op => exact ⟨.unary op, rfl⟩
  | reduce e op => exact ⟨.reduce op, rfl⟩
  | cast e target => exact ⟨.cast target, rfl⟩
  | isNull e => exact ⟨.isNull, rfl⟩
  | notNull e => exact ⟨.notNull, rfl⟩
  | fillMissing e value => exact ⟨.fillMissing, rfl⟩
  | membership e negated candidates => exact ⟨.membership negated, rfl⟩
  | between e lower upper inclusive => exact ⟨.between inclusive, rfl⟩
  | conditional e ifTrue ifFalse => exact ⟨.conditional, rfl⟩
  | switch e cases =>
    refine ⟨.switch cases.default.isSome, ?_⟩
    show some (Construction.switch e (.ofExprs cases.default.isSome cases.exprs)) = _
    rw [Cases.ofExprs_exprs]
  | cut e edges o => exact ⟨.cut edges o, rfl⟩

/-- A call is made on the expressions given. -/
theorem arguments_subset {op : Operation} {es : List Expr} {k : Construction} (h : op.on es = some k) :
    k.arguments ⊆ es := by
  unfold Operation.on at h
  split at h <;> cases h
  -- only cases are put together anew; everything else is taken as it is given
  all_goals first
    | exact List.Subset.refl _
    | exact List.cons_subset_cons _ (Cases.exprs_ofExprs_subset _ _)

end Operation

namespace Session

variable {s s' : Session}

/-- Whatever a query gives out of an expression within reach is within reach. -/
theorem Has.part {e x : Expr} (he : s.Has e) {q : Part} (hx : x ∈ q.of e) : s.Has x := by
  have hnode : ∀ n ∈ e.walk, s.Has n := Expr.forall_walk (fun _ ha _ ho => .operand ha ho) he
  have hbranch : x ∈ e.branches.toOperands → s.Has x := fun hx => .operand he (Expr.mem_operands_of_branches hx)
  cases q with
  | operand => exact .operand he hx
  | node => exact hnode x hx
  | column => exact hnode x (e.columnRefs_subset_walk hx)
  | candidate =>
    have hx : x ∈ e.candidates := hx
    unfold Expr.candidates at hx
    split at hx
    · exact .operand he (List.mem_of_mem_drop hx)
    · cases hx
  | case | condition | result | default =>
    refine hbranch ?_
    unfold Branches.toOperands
    simp only [List.mem_append]
    unfold Part.of at hx
    tauto

/-- A place that a program names is within reach. -/
theorem has_of_lookup {p : Place} {e : Expr} (h : s.lookup p = .ok e) : s.Has e := by
  induction p generalizing e with
  | returned i => exact .returned (mem_of_found h)
  | field c i =>
    obtain ⟨c, hc, he⟩ := except_bind_eq_ok.mp h
    exact .field (mem_of_found hc) (mem_of_found he)
  | part q p i ih =>
    obtain ⟨a, ha, he⟩ := except_bind_eq_ok.mp h
    exact (ih ha).part (mem_of_found he)

theorem has_of_lookups {ps : List Place} {es : List Expr} (h : ps.mapM s.lookup = .ok es) : ∀ e ∈ es, s.Has e := by
  intro e he
  obtain ⟨p, _, hp⟩ := exists_of_forall₂ (mapM_eq_ok.mp h) he
  exact has_of_lookup hp

theorem has_of_lookupFields {ps : List FieldPlace} {refs : List FieldRef} (h : ps.mapM s.lookupField = .ok refs)
    {e : Expr} (he : .given e ∈ refs) : s.Has e := by
  obtain ⟨p, _, hp⟩ := exists_of_forall₂ (mapM_eq_ok.mp h) he
  cases p with
  | named n => cases hp
  | given p =>
    rw [lookupField, map_eq_pure_bind] at hp
    obtain ⟨a, ha, heq⟩ := except_bind_eq_ok.mp hp
    cases heq
    exact has_of_lookup ha

/-- A call that is not refused is a step of the session, or leaves it as it is. -/
theorem perform_step [Hasher] {r : Request} {answer : Answer} (h : s.perform r = .ok (answer, s')) :
    s' = s ∨ Step s s' := by
  cases r with
  | construct op args =>
    obtain ⟨es, hes, h⟩ := except_bind_eq_ok.mp h
    obtain ⟨k, hk, h⟩ := except_bind_eq_ok.mp h
    obtain ⟨⟨e, supply⟩, hr, h⟩ := except_bind_eq_ok.mp h
    cases h
    have hargs := Operation.arguments_subset (found_eq_ok.mp hk)
    exact Or.inr (.construct k (fun a ha => has_of_lookups hes a (hargs ha)) (called_eq_ok.mp hr))
  | function name call =>
    obtain ⟨⟨f, supply⟩, hr, h⟩ := except_bind_eq_ok.mp h
    cases h
    exact Or.inr (.function name call (called_eq_ok.mp hr))
  | source name schema =>
    obtain ⟨⟨c, supply⟩, hr, h⟩ := except_bind_eq_ok.mp h
    cases h
    exact Or.inr (.source name schema (called_eq_ok.mp hr))
  | col c name =>
    obtain ⟨_, _, h⟩ := except_bind_eq_ok.mp h
    obtain ⟨_, _, h⟩ := except_bind_eq_ok.mp h
    cases h
    exact Or.inl rfl
  | select c refs =>
    obtain ⟨c, hc, h⟩ := except_bind_eq_ok.mp h
    obtain ⟨refs, hrefs, h⟩ := except_bind_eq_ok.mp h
    obtain ⟨d, hr, h⟩ := except_bind_eq_ok.mp h
    cases h
    exact Or.inr (.select refs (mem_of_found hc) (fun e he => has_of_lookupFields hrefs he) (called_eq_ok.mp hr))
  | switch c hasDefault args =>
    obtain ⟨c, hc, h⟩ := except_bind_eq_ok.mp h
    obtain ⟨es, hes, h⟩ := except_bind_eq_ok.mp h
    obtain ⟨⟨e, supply⟩, hr, h⟩ := except_bind_eq_ok.mp h
    cases h
    refine Or.inr (.switch (.ofExprs hasDefault es) (mem_of_found hc) ?_ (called_eq_ok.mp hr))
    exact fun x hx => has_of_lookups hes x (Cases.exprs_ofExprs_subset hasDefault es hx)
  | apply c f o =>
    obtain ⟨c, hc, h⟩ := except_bind_eq_ok.mp h
    obtain ⟨f, hf, h⟩ := except_bind_eq_ok.mp h
    obtain ⟨⟨made, supply⟩, hr, h⟩ := except_bind_eq_ok.mp h
    cases made with
    | sequence e =>
      cases h
      exact Or.inr (.applyToSequence o (mem_of_found hc) (mem_of_found hf) (called_eq_ok.mp hr))
    | collection d =>
      cases h
      exact Or.inr (.applyToCollection o (mem_of_found hc) (mem_of_found hf) (called_eq_ok.mp hr))
  | intern i p =>
    obtain ⟨e, he, h⟩ := except_bind_eq_ok.mp h
    cases h
    exact Or.inr (.intern i (has_of_lookup he) rfl)
  | clear i =>
    cases h
    exact Or.inr (.clear i)
  | contains i p =>
    obtain ⟨_, _, h⟩ := except_bind_eq_ok.mp h
    cases h
    exact Or.inl rfl
  | size i =>
    cases h
    exact Or.inl rfl
  | view p =>
    obtain ⟨_, _, h⟩ := except_bind_eq_ok.mp h
    cases h
    exact Or.inl rfl
  | same p q | identical p q =>
    obtain ⟨_, _, h⟩ := except_bind_eq_ok.mp h
    obtain ⟨_, _, h⟩ := except_bind_eq_ok.mp h
    cases h
    exact Or.inl rfl

theorem ask_reachable [Hasher] (h : Reachable s) (r : Request) : Reachable (s.ask r).2 := by
  unfold ask
  cases hr : s.perform r with
  | error refusal => exact h
  | ok made =>
    rcases perform_step hr with heq | hstep
    · rw [heq]
      exact h
    · exact .step h hstep

/-- A program stays among the sessions that some calls lead to. -/
theorem run_reachable [Hasher] (program : Program) (n : Nat) {replies : List Reply} (h : Reachable s) :
    Reachable (run program n replies s).2 := by
  induction n generalizing replies s with
  | zero => exact h
  | succ n ih =>
    rw [run]
    cases program replies with
    | none => exact h
    | some r => exact ih (ask_reachable h r)

end Session

end Columnar
