import Columnar.Proofs.Cache.Renumber
import Columnar.Proofs.Collection.Renumber
import Columnar.Proofs.Session.Program

/-!
# `Proofs.Session.Renumber` — no result depends on the numbers of sources

Two sessions that differ in their numbers only stay so, whatever calls are made in both. The invariant is a
renumbering: the second session is the first under other numbers, and what is drawn from now on is moved on by as
much as the second process has drawn before. So whatever a program sees is the same in both.

## Contents
- `Session.renumber`, `Renumbering.Follows`: a session under other numbers, and the numbers that come next.
- `Expr.ReadsAs`, `Heap.readsAs_renumber`: what is read off an expression, and off its renumbered form.
- `view_renumber`, `lookup_renumber`: what a program sees and where it finds expressions.
- `perform_renumber`, `run_renumber`: one call, and a program.
- `Renumbering.later`, `run_later`: a program that runs later in the life of a process.
- `reachable_renumber`: all of it, in every reachable session.
-/

namespace Columnar

section

variable [Hasher] (ρ : Renumbering)

/-- A cache and its log under other numbers. -/
def Interning.renumber (n : Interning) : Interning where
  cache := n.cache.renumber ρ
  log := n.log.map (Prod.map (Expr.renumber ρ) (Expr.renumber ρ))

/-- The session under other numbers, in a process in which others have drawn before. -/
def Session.renumber (past : Supply) (s : Session) : Session where
  supply := past.after s.supply
  exprs := s.exprs.map (Expr.renumber ρ)
  collections := s.collections.map (Collection.renumber ρ)
  functions := s.functions.map (MapFunction.renumber ρ)
  catalog := s.catalog.map (Prod.map ρ.source id)
  caches i := (s.caches i).renumber ρ

end

/-! ## The numbers that come next -/

/-- What is drawn from a supply on has the numbers that come after those drawn before by others. -/
structure Renumbering.Follows (ρ : Renumbering) (past s : Supply) : Prop where
  nodes : past.nextNode = ρ.nodes
  source : ∀ n, s.nextSource ≤ n → ρ.source ⟨n⟩ = ⟨past.nextSource + n⟩
  function : ∀ n, ρ.function ⟨n⟩ = ⟨past.nextFunction + n⟩

namespace Renumbering

theorem Follows.mono {ρ : Renumbering} {past s s' : Supply} (h : ρ.Follows past s)
    (hle : s.nextSource ≤ s'.nextSource) : ρ.Follows past s' :=
  ⟨h.nodes, fun n hn => h.source n (Nat.le_trans hle hn), h.function⟩

/-- All numbers are those that come after the ones drawn before by others. -/
def later (past : Supply) : Renumbering where
  source i := ⟨past.nextSource + i.number⟩
  function i := ⟨past.nextFunction + i.number⟩
  nodes := past.nextNode

theorem Follows.later (past s : Supply) : (later past).Follows past s :=
  ⟨rfl, fun _ _ => rfl, fun _ => rfl⟩

theorem later_injective (past : Supply) : (later past).Injective where
  source i j h := by
    have hnumber := Nat.add_left_cancel (congrArg SourceId.number h)
    exact congrArg SourceId.mk hnumber
  function i j h := by
    have hnumber := Nat.add_left_cancel (congrArg FunctionId.number h)
    exact congrArg FunctionId.mk hnumber

end Renumbering

section

variable [Hasher]

/-- Sources are numbered in order. -/
theorem Heap.nextSource_eq {catalog : Catalog} {heap : List Expr} {s : Supply} (h : Heap catalog heap s) :
    s.nextSource = catalog.length + 1 := by
  induction h with
  | empty => rfl
  | node _ _ _ _ _ _ _ ih => exact ih
  | source _ _ ih => exact congrArg (· + 1) ih
  | function _ ih => exact ih

theorem Session.Step.catalog_length_le {s s' : Session} (h : Step s s') : s.catalog.length ≤ s'.catalog.length := by
  cases h with
  | source => exact Nat.le_succ _
  | _ => exact Nat.le_refl _

/-- A call uses up source numbers, and brings none back. -/
theorem Session.ask_nextSource_le {s : Session} (h : Reachable s) (r : Request) :
    s.supply.nextSource ≤ (s.ask r).2.supply.nextSource := by
  obtain ⟨heap, hsound⟩ := h.sound
  obtain ⟨heap', hsound'⟩ := (ask_reachable h r).sound
  rw [hsound.history.nextSource_eq, hsound'.history.nextSource_eq]
  unfold ask
  cases hr : s.perform r with
  | error refusal => exact Nat.le_refl _
  | ok made =>
    rcases perform_step hr with heq | hstep
    · rw [heq]
    · exact Nat.succ_le_succ hstep.catalog_length_le

end

/-! ## What a program finds -/

section

variable {α β : Type} {f : α → β}

theorem found_map (o : Option α) : found (o.map f) = f <$> found o := by
  cases o <;> rfl

theorem called_map {x : Except BuildError α} : called (f <$> x) = f <$> called x := by
  cases x <;> rfl

theorem found_getElem?_map (as : List α) (i : Nat) : found (as.map f)[i]? = f <$> found as[i]? := by
  rw [List.getElem?_map, found_map]

end

theorem Cases.pairUp_map (f : Expr → Expr) (es : List Expr) :
    pairUp (es.map f) = (pairUp es).map fun p => (f p.1, f p.2) := by
  induction es using pairUp.induct with
  | case1 c t rest ih =>
    rw [List.map_cons, List.map_cons, pairUp, pairUp, ih, List.map_cons]
  | case2 es h =>
    rcases es with _ | ⟨c, _ | ⟨t, rest⟩⟩
    · rfl
    · rfl
    · exact absurd rfl (h c t rest)

theorem Cases.ofExprs_map (f : Expr → Expr) (hasDefault : Bool) (es : List Expr) :
    ofExprs hasDefault (es.map f) = (ofExprs hasDefault es).map f := by
  unfold ofExprs map
  cases hasDefault with
  | false => simp [pairUp_map]
  | true => simp [← List.map_dropLast, pairUp_map, List.getLast?_map]

/-- A call does not look into its arguments to find out what it is. -/
theorem Operation.on_map (f : Expr → Expr) (op : Operation) (es : List Expr) :
    op.on (es.map f) = (op.on es).map (Construction.map f) := by
  cases op with
  | switch hasDefault =>
    cases es with
    | nil => rfl
    | cons e es =>
      have hcases := Cases.ofExprs_map f hasDefault es
      exact congrArg (fun cases => some (Construction.switch (f e) cases)) hcases
  | membership negated => cases es <;> rfl
  | _ => rcases es with _ | ⟨a, _ | ⟨b, _ | ⟨c, _ | ⟨d, es⟩⟩⟩⟩ <;> rfl

section

variable [Hasher] {ρ : Renumbering}

/-- A query gives the renumbered expressions, in the same order. -/
theorem Part.of_renumber (hρ : ρ.Injective) {catalog : Catalog} {heap : List Expr} {s : Supply}
    (h : Heap catalog heap s) {e : Expr} (he : e ∈ heap) (q : Part) :
    q.of (e.renumber ρ) = (q.of e).map (Expr.renumber ρ) := by
  cases q with
  | operand => exact Expr.operands_renumber ρ e
  | node => exact Expr.walk_renumber ρ e
  | column => exact h.columnRefs_renumber hρ he
  | candidate => exact Expr.candidates_renumber ρ e
  | case | condition | result | default =>
    simp only [of, Expr.branches_renumber, Branches.map, Option.toList_map]

/-- What is read off an expression, and off the expression under other numbers: the same texts, names, types, shapes
and payloads, the same sources under their other numbers, and renumbered expressions in the same order. -/
structure Expr.ReadsAs (ρ : Renumbering) (e e' : Expr) : Prop where
  text : e'.text = e.text
  type : e'.type = e.type
  shape : e'.shape = e.shape
  name : e'.name? = e.name?
  givenName : e'.givenName = e.givenName
  isLeaf : e'.isLeaf = e.isLeaf
  isScalar : e'.isScalar = e.isScalar
  isSequence : e'.isSequence = e.isSequence
  kind : e'.kind = e.kind.renumber ρ
  literal : e'.kind.literal? = e.kind.literal?
  bins : e'.kind.bins? = e.kind.bins?
  mapping : e'.kind.mapping? = e.kind.mapping?.map (Mapping.renumber ρ)
  sources : ∀ source, source ∈ e'.sources ↔ ∃ x ∈ e.sources, ρ.source x = source
  parts : ∀ q : Part, q.of e' = (q.of e).map (Expr.renumber ρ)

theorem Heap.readsAs_renumber (hρ : ρ.Injective) {catalog : Catalog} {heap : List Expr} {s : Supply}
    (h : Heap catalog heap s) {e : Expr} (he : e ∈ heap) : e.ReadsAs ρ (e.renumber ρ) where
  text := e.text_renumber ρ
  type := e.type_renumber ρ
  shape := e.shape_renumber ρ
  name := e.name?_renumber ρ
  givenName := e.givenName_renumber ρ
  isLeaf := e.isLeaf_renumber ρ
  isScalar := e.isScalar_renumber ρ
  isSequence := e.isSequence_renumber ρ
  kind := e.kind_renumber ρ
  literal := by rw [Expr.kind_renumber, Kind.literal?_renumber]
  bins := by rw [Expr.kind_renumber, Kind.bins?_renumber]
  mapping := by rw [Expr.kind_renumber, Kind.mapping?_renumber]
  sources source := by rw [Expr.sources_renumber, Expr.mem_ascendingSources, List.mem_map]
  parts := Part.of_renumber hρ h he

namespace Session

variable {past : Supply} {s : Session}

/-- A program sees the same of an expression, whatever the numbers are. -/
theorem view_renumber (hρ : ρ.Injective) (e : Expr) : (s.renumber ρ past).view (e.renumber ρ) = s.view e := by
  have hrefers : ∀ c : Collection,
      (e.renumber ρ).sources.contains (c.renumber ρ).source = e.sources.contains c.source := by
    intro c
    rw [Bool.eq_iff_iff, List.contains_iff_mem, List.contains_iff_mem, Expr.sources_renumber,
      Expr.mem_ascendingSources]
    exact List.mem_map_of_injective hρ.source
  unfold view renumber
  simp only [Expr.text_renumber, Expr.type_renumber, Expr.shape_renumber, Expr.name?_renumber,
    Expr.givenName_renumber, Expr.kind_renumber, Kind.name_renumber, Kind.literal?_renumber, Kind.bins?_renumber,
    Kind.mapping?_renumber, Expr.length_sources_renumber hρ, List.map_map, Option.map_map, Function.comp_def, hrefers]
  rfl

theorem lookup_renumber (hρ : ρ.Injective) {heap : List Expr} (h : s.Sound heap) (p : Place) :
    (s.renumber ρ past).lookup p = Expr.renumber ρ <$> s.lookup p := by
  induction p with
  | returned i => exact found_getElem?_map s.exprs i
  | field c i =>
    exact except_bind_map (found_getElem?_map s.collections c) fun c _ => found_getElem?_map c.fields i
  | part q p i ih =>
    refine except_bind_map ih fun e he => ?_
    rw [q.of_renumber hρ h.history (h.has_mem (has_of_lookup he))]
    exact found_getElem?_map (q.of e) i

theorem lookups_renumber (hρ : ρ.Injective) {heap : List Expr} (h : s.Sound heap) (ps : List Place) :
    ps.mapM (s.renumber ρ past).lookup = List.map (Expr.renumber ρ) <$> ps.mapM s.lookup :=
  except_mapM_same (lookup_renumber hρ h)

theorem lookupFields_renumber (hρ : ρ.Injective) {heap : List Expr} (h : s.Sound heap) (ps : List FieldPlace) :
    ps.mapM (s.renumber ρ past).lookupField
      = List.map (FieldRef.map (Expr.renumber ρ)) <$> ps.mapM s.lookupField := by
  refine except_mapM_same fun p => ?_
  cases p with
  | named n => rfl
  | given p =>
    show FieldRef.given <$> (s.renumber ρ past).lookup p = _ <$> (FieldRef.given <$> s.lookup p)
    rw [lookup_renumber hρ h]
    cases s.lookup p <;> rfl

/-! ## One call -/

theorem addExpr_renumber (hρ : ρ.Injective) (e : Expr) (supply : Supply) :
    (s.renumber ρ past).addExpr (e.renumber ρ) (past.after supply)
      = ((s.addExpr e supply).1, (s.addExpr e supply).2.renumber ρ past) := by
  let s' : Session := { s with supply, exprs := e :: s.exprs }
  have hview : (s'.renumber ρ past).view (e.renumber ρ) = s'.view e := view_renumber hρ e
  exact congrArg (fun v => (Answer.expression v, s'.renumber ρ past)) hview

theorem addCollection_renumber (hρ : ρ.Injective) (c : Collection) (supply : Supply) (catalog : Catalog) :
    (s.renumber ρ past).addCollection (c.renumber ρ) (past.after supply) (catalog.map (Prod.map ρ.source id))
      = ((s.addCollection c supply catalog).1, (s.addCollection c supply catalog).2.renumber ρ past) := by
  let s' : Session := { s with supply, collections := c :: s.collections, catalog }
  have hviews : (c.renumber ρ).fields.map (s'.renumber ρ past).view = c.fields.map s'.view := by
    show (c.fields.map (Expr.renumber ρ)).map _ = _
    rw [List.map_map]
    exact List.map_congr_left fun e _ => view_renumber hρ e
  exact congrArg (fun vs => (Answer.collection c.name c.schema vs, s'.renumber ρ past)) hviews

variable (ρ past s) in
theorem renumber_update (i : Nat) (n : Interning) :
    { s with caches := Function.update s.caches i n }.renumber ρ past
      = { s.renumber ρ past with caches := Function.update (s.renumber ρ past).caches i (n.renumber ρ) } := by
  have hcaches : (fun j => (Function.update s.caches i n j).renumber ρ)
      = Function.update (fun j => (s.caches j).renumber ρ) i (n.renumber ρ) :=
    Function.comp_update (Interning.renumber ρ) s.caches i n
  unfold renumber
  rw [hcaches]

theorem addInterned_renumber (hρ : ρ.Injective) (i : Nat) (e : Expr) (r : Expr × Cache × Supply) :
    (s.renumber ρ past).addInterned i (e.renumber ρ) (r.1.renumber ρ, r.2.1.renumber ρ, past.after r.2.2)
      = ((s.addInterned i e r).1, (s.addInterned i e r).2.renumber ρ past) := by
  have hcaches := renumber_update ρ past s i ⟨r.2.1, (e, r.1) :: (s.caches i).log⟩
  unfold addInterned
  dsimp only
  rw [← addExpr_renumber hρ, hcaches]
  rfl

/-- A call that is built gives the renumbered result, and draws as much. -/
theorem called_renumbers {α β : Type} {f : α → β} {x : Build α} {y : Build β} (h : Build.Renumbers ρ f x y)
    (hf : ρ.Follows past s.supply) :
    called (y (s.renumber ρ past).supply) = (fun r => (f r.1, past.after r.2)) <$> called (x s.supply) := by
  rw [← called_map]
  exact congrArg called (h past s.supply hf.nodes)

/-- One call shows the same under other numbers, and is refused for the same reason. -/
theorem perform_renumber (hρ : ρ.Injective) (h : Reachable s) (hf : ρ.Follows past s.supply) (r : Request) :
    (s.renumber ρ past).perform r = (fun made => (made.1, made.2.renumber ρ past)) <$> s.perform r := by
  obtain ⟨heap, hsound⟩ := h.sound
  cases r with
  | construct op args =>
    refine except_bind_map (lookups_renumber hρ hsound args) fun es _ => ?_
    rw [Operation.on_map]
    refine except_bind_map (found_map _) fun k _ => ?_
    refine except_bind_map (called_renumbers (Construction.build_renumbers ρ k) hf) fun r _ => ?_
    exact congrArg pure (addExpr_renumber hρ r.1 r.2)
  | function name call =>
    refine except_bind_map (f := fun r => (r.1.renumber ρ, past.after r.2)) ?_ fun _ _ => rfl
    show Except.ok (MapFunction.mk name ⟨past.nextFunction + s.supply.nextFunction⟩ call, _)
      = Except.ok (MapFunction.mk name (ρ.function ⟨s.supply.nextFunction⟩) call, _)
    rw [hf.function]
    rfl
  | source name schema =>
    have hmade := Collection.make_renumber hf.nodes (hf.source _ (Nat.le_refl _)) name schema
    refine except_bind_map ((congrArg called hmade).trans called_map) fun r _ => ?_
    exact congrArg pure (addCollection_renumber hρ r.1 r.2 ((r.1.source, schema) :: s.catalog))
  | col c name =>
    refine except_bind_map (found_getElem?_map s.collections c) fun c _ => ?_
    rw [Collection.col_renumber]
    refine except_bind_map called_map fun e _ => ?_
    rw [view_renumber hρ]
    rfl
  | select c refs =>
    refine except_bind_map (found_getElem?_map s.collections c) fun c _ => ?_
    refine except_bind_map (lookupFields_renumber hρ hsound refs) fun refs _ => ?_
    rw [Collection.select_renumber c hρ]
    refine except_bind_map called_map fun d _ => ?_
    exact congrArg pure (addCollection_renumber hρ d s.supply s.catalog)
  | switch c hasDefault args =>
    refine except_bind_map (found_getElem?_map s.collections c) fun c _ => ?_
    refine except_bind_map (lookups_renumber hρ hsound args) fun es _ => ?_
    rw [Cases.ofExprs_map]
    refine except_bind_map (called_renumbers (Collection.switch_renumbers c hρ _) hf) fun r _ => ?_
    exact congrArg pure (addExpr_renumber hρ r.1 r.2)
  | apply c f o =>
    refine except_bind_map (found_getElem?_map s.collections c) fun c _ => ?_
    refine except_bind_map (found_getElem?_map s.functions f) fun f _ => ?_
    refine except_bind_map (called_renumbers (Collection.apply_renumbers c f o hρ) hf) fun r _ => ?_
    obtain ⟨made, supply⟩ := r
    cases made with
    | sequence e => exact congrArg pure (addExpr_renumber hρ e supply)
    | collection d => exact congrArg pure (addCollection_renumber hρ d supply s.catalog)
  | intern i p =>
    refine except_bind_map (lookup_renumber hρ hsound p) fun e he => ?_
    have hintern := Cache.intern_renumber hρ hf.nodes e hsound.history (hsound.caches_sound i).shared
      (hsound.has_mem (has_of_lookup he))
    exact congrArg Except.ok (hintern ▸ addInterned_renumber hρ i e ((s.caches i).cache.intern e s.supply))
  | clear i =>
    have hcleared := renumber_update ρ past s i ⟨(s.caches i).cache.clear, []⟩
    exact congrArg (fun s' => Except.ok (Answer.done, s')) hcleared.symm
  | contains i p =>
    refine except_bind_map (lookup_renumber hρ hsound p) fun e he => ?_
    have hcontains := Cache.contains_renumber hρ hsound.history (hsound.caches_sound i).shared.nodes_subset
      (hsound.has_mem (has_of_lookup he))
    exact congrArg (fun b => Except.ok (Answer.flag b, s.renumber ρ past)) hcontains
  | size i =>
    have hsize := Cache.size_renumber ρ (s.caches i).cache
    exact congrArg (fun n => Except.ok (Answer.count n, s.renumber ρ past)) hsize
  | view p =>
    refine except_bind_map (lookup_renumber hρ hsound p) fun e _ => ?_
    rw [view_renumber hρ]
    rfl
  | same p q =>
    refine except_bind_map (lookup_renumber hρ hsound p) fun a ha => ?_
    refine except_bind_map (lookup_renumber hρ hsound q) fun b hb => ?_
    rw [hsound.history.same_renumber hρ (hsound.has_mem (has_of_lookup ha)) (hsound.has_mem (has_of_lookup hb))]
    rfl
  | identical p q =>
    refine except_bind_map (lookup_renumber hρ hsound p) fun a _ => ?_
    refine except_bind_map (lookup_renumber hρ hsound q) fun b _ => ?_
    rw [Expr.identical_renumber]
    rfl

/-! ## Programs -/

theorem ask_renumber (hρ : ρ.Injective) (h : Reachable s) (hf : ρ.Follows past s.supply) (r : Request) :
    (s.renumber ρ past).ask r = ((s.ask r).1, (s.ask r).2.renumber ρ past) := by
  unfold ask
  rw [perform_renumber hρ h hf]
  cases s.perform r <;> rfl

/-- A program makes the same calls and gets the same replies under other numbers. -/
theorem run_renumber (hρ : ρ.Injective) (program : Program) (n : Nat) {replies : List Reply} (h : Reachable s)
    (hf : ρ.Follows past s.supply) :
    run program n replies (s.renumber ρ past)
      = ((run program n replies s).1, (run program n replies s).2.renumber ρ past) := by
  induction n generalizing replies s with
  | zero => rfl
  | succ n ih =>
    rw [run, run]
    cases program replies with
    | none => rfl
    | some r =>
      dsimp only
      rw [ask_renumber hρ h hf]
      exact ih (ask_reachable h r) (hf.mono (ask_nextSource_le h r))

/-- A program that starts later in the life of a process gets the replies that it gets at the start. -/
theorem run_later (past : Supply) (program : Program) (n : Nat) :
    run program n [] { supply := past.after {} }
      = ((run program n [] {}).1, (run program n [] {}).2.renumber (.later past) past) :=
  run_renumber (Renumbering.later_injective past) program n .start (.later past {})

/-! ## All calls -/

/-- Under any injective renumbering of sources, every call does what it did before and gives the renumbered result:
it is refused exactly if it was, with the same error. This holds of all constructions, of finding, choosing and
switching over the fields of a collection and of applying functions to them, and, for what is within reach, of
interning into a cache that is renumbered in the same way and of all queries; texts, types, shapes, names and answers
to yes and no stay as they are. So a program gets the same replies in a renumbered session, and what it leaves behind
is the renumbered session again. In particular a program gets the same replies however many nodes, sources and
functions the process has made before. -/
theorem reachable_renumber (h : Reachable s) (hρ : ρ.Injective) :
    (∀ k : Construction, Build.Renumbers ρ (Expr.renumber ρ) k.build (k.map (Expr.renumber ρ)).build)
      ∧ (∀ c : Collection, (∀ name, (c.renumber ρ).col name = Expr.renumber ρ <$> c.col name)
        ∧ (∀ refs, (c.renumber ρ).select (refs.map (FieldRef.map (Expr.renumber ρ)))
            = Collection.renumber ρ <$> c.select refs)
        ∧ (∀ cases, Build.Renumbers ρ (Expr.renumber ρ) (c.switch cases)
            ((c.renumber ρ).switch (cases.map (Expr.renumber ρ))))
        ∧ ∀ f o, Build.Renumbers ρ (Applied.renumber ρ) (c.apply f o) ((c.renumber ρ).apply (f.renumber ρ) o))
      ∧ (∀ e, s.Has e → ∀ (i : Nat) (past : Supply), past.nextNode = ρ.nodes →
        ((s.caches i).cache.renumber ρ).contains (e.renumber ρ) = (s.caches i).cache.contains e
          ∧ ∃ r cache supply, (s.caches i).cache.intern e s.supply = (r, cache, supply)
            ∧ ((s.caches i).cache.renumber ρ).intern (e.renumber ρ) (past.after s.supply)
              = (r.renumber ρ, cache.renumber ρ, past.after supply))
      ∧ (∀ e, s.Has e → e.ReadsAs ρ (e.renumber ρ)
        ∧ ∀ o, s.Has o → (e.renumber ρ).same (o.renumber ρ) = e.same o
          ∧ (e.renumber ρ).identical (o.renumber ρ) = e.identical o)
      ∧ (∀ program n (past : Supply), ρ.Follows past s.supply → run program n [] (s.renumber ρ past)
        = ((run program n [] s).1, (run program n [] s).2.renumber ρ past))
      ∧ ∀ program n (past : Supply), run program n [] { supply := past.after {} }
        = ((run program n [] {}).1, (run program n [] {}).2.renumber (.later past) past) := by
  obtain ⟨heap, hsound⟩ := h.sound
  refine ⟨Construction.build_renumbers ρ, fun c => ?_, fun e he i past hpast => ?_, fun e he => ?_,
    fun program n past hf => run_renumber hρ program n h hf, fun program n past => run_later past program n⟩
  · exact ⟨c.col_renumber, c.select_renumber hρ, c.switch_renumbers hρ, fun f o => c.apply_renumbers f o hρ⟩
  · have hmem := hsound.has_mem he
    have hshared := (hsound.caches_sound i).shared
    exact ⟨Cache.contains_renumber hρ hsound.history hshared.nodes_subset hmem, _, _, _, rfl,
      Cache.intern_renumber hρ hpast e hsound.history hshared hmem⟩
  · have hmem := hsound.has_mem he
    refine ⟨hsound.history.readsAs_renumber hρ hmem, fun o ho => ?_⟩
    exact ⟨hsound.history.same_renumber hρ hmem (hsound.has_mem ho), Expr.identical_renumber ρ e o⟩

end Session

end

/-! ## Orders under other numbers -/

namespace Orders

/-- The source of the orders comes first, and all others come later by three. -/
def moved : Renumbering where
  source i := ⟨if i.number = 1 then 0 else 3 + i.number⟩
  nodes := 2

theorem moved_injective : moved.Injective where
  source i j h := by
    have hnumber : (if i.number = 1 then 0 else 3 + i.number) = if j.number = 1 then 0 else 3 + j.number :=
      congrArg SourceId.number h
    have hij : i.number = j.number := by
      split at hnumber <;> split at hnumber <;> omega
    exact congrArg SourceId.mk hij
  function := Function.injective_id

theorem moved_follows : moved.Follows ⟨2, 3, 0⟩ session.supply where
  nodes := rfl
  source n hn := by
    have hne : n ≠ 1 := by
      have hn : 2 ≤ n := hn
      omega
    exact congrArg SourceId.mk (if_neg hne)
  function n := congrArg FunctionId.mk (Nat.zero_add n).symm

end Orders

/-- The second of two equal forms of a column comes back as the first, under other numbers too. -/
theorem Session.reachable_renumber_orders : @Reachable Orders.collide Orders.session
    ∧ Orders.moved.Injective
    ∧ Orders.session.Has (Orders.settled 5 (Orders.no 4) none)
    ∧ Orders.moved.Follows ⟨2, 3, 0⟩ Orders.session.supply
    ∧ (@Expr.renumber Orders.collide Orders.moved Orders.paid).kind = .column "paid" ⟨0⟩
    ∧ (@Expr.renumber Orders.collide Orders.moved (Orders.settled 5 (Orders.no 4) none)).text
        = (Orders.settled 5 (Orders.no 4) none).text
    ∧ (@Cache.intern Orders.collide
        (@Expr.renumber Orders.collide Orders.moved (Orders.settled 5 (Orders.no 4) none))
        (@Cache.renumber Orders.collide Orders.moved (Orders.session.caches 0).cache)
        (Supply.after ⟨2, 3, 0⟩ Orders.session.supply)).1
          = @Expr.renumber Orders.collide Orders.moved (Orders.settled 3 (Orders.no 2) none)
    ∧ ∀ program n, (@Session.run Orders.collide program n []
        (@Session.renumber Orders.collide Orders.moved ⟨2, 3, 0⟩ Orders.session)).1
          = (@Session.run Orders.collide program n [] Orders.session).1 := by
  let _ : Hasher := Orders.collide
  have hreach := Orders.session_reachable
  have hhas : Orders.session.Has (Orders.settled 5 (Orders.no 4) none) := .returned (by simp [Orders.session])
  have hall := reachable_renumber hreach Orders.moved_injective
  obtain ⟨_, r, cache, supply, hr, hmoved⟩ := hall.2.2.1 _ hhas 0 ⟨2, 3, 0⟩ rfl
  have hfirst : r = Orders.settled 3 (Orders.no 2) none := (congrArg Prod.fst hr).symm
  rw [hfirst] at hmoved
  refine ⟨hreach, Orders.moved_injective, hhas, Orders.moved_follows, rfl, (hall.2.2.2.1 _ hhas).1.text,
    congrArg Prod.fst hmoved, fun program n => ?_⟩
  rw [hall.2.2.2.2.1 program n ⟨2, 3, 0⟩ Orders.moved_follows]

end Columnar
