import Columnar.Proofs.Collection.Application
import Columnar.Proofs.Expr.Traversal
import Columnar.Proofs.Session.Interning

/-!
# `Proofs.Session.Traversal` — sources and columns of all expressions within reach

A call that makes an expression keeps what it was called on among the operands, at most with a literal converted, and
no literal refers to a source. So the sources of what it makes are those of its arguments. After any number of calls
they are the sources of the columns that were at the beginning, and a collection accepts the outcome exactly if it
accepts all these columns.

## Contents
- `Session.Derives`: one call that makes an expression out of others.
- `Construction.joinsSources`, `Derives.joinsSources`: the sources are those of the arguments.
- `Session.Arises`, `Step.arises`: what calls hand out.
- `Session.BuiltFrom`, `BuiltFrom.mem_sources_iff`: any number of calls, from columns on.
- `Collection.exists_checkOwned_eq_error_iff`: an expression is refused for its sources.
- `reachable_traversal`: walks, sources and distinct columns, and what they decide.
-/

namespace Columnar

/-! ## Constructions -/

theorem Cases.mem_toOperands {case : Option Expr} {cases : Cases} {x : Expr} :
    x ∈ (cases.branches case).toOperands ↔ x ∈ case.toList ∨ x ∈ cases.exprs := by
  rw [Cases.mem_exprs]
  simp only [branches, Branches.toOperands, List.mem_append, or_assoc]

namespace Expr

variable [Hasher] {e : Expr} {s : Supply} {r : Expr × Supply}

/-- What stands in for missing values has the sources of the value given: a literal has none, converted or not. -/
theorem mem_sources_fill {value : Expr} (h : value.WellTyped) (hr : e.fill value s = .ok r) (source : SourceId) :
    source ∈ r.1.sources ↔ source ∈ value.sources := by
  rcases fill_eq_ok.mp hr with ⟨v, w, hv, _, rfl⟩ | ⟨_, _, rfl⟩
  · have hliteral : value.kind = .literal v := by
      cases hkind : value.kind <;> rw [hkind] at hv <;> cases hv
      rfl
    have hnone : value.operands = [] := h.operands_eq_nil (by rw [hliteral]; rfl)
    rw [mem_sources_iff, mem_sources_iff (e := value), hliteral, hnone]
    rfl
  · exact Iff.rfl

theorem switchOn_joinsSources (case : Option Expr) {cases : Cases} (hr : switchOn case cases s = .ok r) :
    r.1.JoinsSources (case.toList ++ cases.exprs) := by
  obtain ⟨_, _, t, _, rfl⟩ := switchOn_eq_ok.mp hr
  refine (joinsSources_operands rfl).congr ?_
  intro x
  rw [List.mem_append]
  exact Cases.mem_toOperands

end Expr

/-- What a construction makes has the sources of its arguments. -/
theorem Construction.joinsSources [Hasher] {k : Construction} {s : Supply} {r : Expr × Supply}
    (hargs : ∀ a ∈ k.arguments, a.WellTyped) (hr : k.build s = .ok r) : r.1.JoinsSources k.arguments := by
  cases k with
  | literal v =>
    rw [Expr.literal_eq_ok.mp hr]
    exact Expr.joinsSources_operands rfl
  | rename e name =>
    rw [Expr.rename_eq_ok.mp hr]
    refine Expr.joinsSources_singleton.mpr ?_
    intro source
    rw [Expr.mem_sources_iff, Expr.mem_sources_iff (e := e)]
    rfl
  | binary e op rhs =>
    obtain ⟨t, _, rfl⟩ := Expr.binary_eq_ok.mp hr
    exact Expr.joinsSources_operands rfl
  | unary e op =>
    obtain ⟨t, _, rfl⟩ := Expr.unary_eq_ok.mp hr
    exact Expr.joinsSources_operands rfl
  | reduce e op =>
    obtain ⟨t, _, rfl⟩ := Expr.reduce_eq_ok.mp hr
    exact Expr.joinsSources_operands rfl
  | cast e target =>
    rcases Expr.cast_eq_ok.mp hr with ⟨_, rfl⟩ | ⟨_, _, rfl⟩
    · exact Expr.joinsSources_singleton.mpr fun _ => Iff.rfl
    · exact Expr.joinsSources_operands rfl
  | isNull e | notNull e =>
    rw [Expr.nullTest_eq_ok.mp hr]
    exact Expr.joinsSources_operands rfl
  | fillMissing e value =>
    obtain ⟨_, f, s', hf, rfl⟩ := Expr.fillMissing_eq_ok.mp hr
    have hvalue := Expr.mem_sources_fill (hargs value (List.mem_cons_of_mem _ List.mem_cons_self)) hf
    intro source
    rw [Expr.joinsSources_operands (e := (s'.node .fillMissing e.type e.shape none [e, f]).1) rfl source]
    show (∃ a ∈ [e, f], source ∈ a.sources) ↔ ∃ a ∈ [e, value], source ∈ a.sources
    simp only [List.mem_cons, List.not_mem_nil, or_false, exists_eq_or_imp, exists_eq_left, hvalue]
  | membership e negated candidates =>
    obtain ⟨_, _, rfl⟩ := Expr.membership_eq_ok.mp hr
    exact Expr.joinsSources_operands rfl
  | between e lower upper inclusive =>
    obtain ⟨t, _, rfl⟩ := Expr.between_eq_ok.mp hr
    exact Expr.joinsSources_operands rfl
  | conditional e ifTrue ifFalse =>
    obtain ⟨_, t, _, rfl⟩ := Expr.conditional_eq_ok.mp hr
    exact Expr.joinsSources_operands rfl
  | switch e cases => exact Expr.switchOn_joinsSources (some e) hr
  | cut e edges o =>
    obtain ⟨_, bins, _, rfl⟩ := Expr.cut_eq_ok.mp hr
    exact Expr.joinsSources_operands rfl

namespace Session

variable [Hasher] {s : Session}

/-! ## One call -/

/-- One call makes an expression out of others, all of them within reach. -/
inductive Derives (s : Session) : List Expr → Expr → Prop
  | construct {r supply} (k : Construction) : (∀ a ∈ k.arguments, s.Has a) →
      k.build s.supply = .ok (r, supply) → Derives s k.arguments r
  | switch {c r supply} (cases : Cases) : c ∈ s.collections → (∀ x ∈ cases.exprs, s.Has x) →
      c.switch cases s.supply = .ok (r, supply) → Derives s cases.exprs r
  /-- Along rows, everything that comes of an application is made of all fields. -/
  | applyRows {c f made supply r} (o : ApplyOptions) : c ∈ s.collections → f ∈ s.functions → o.axis = .row →
      c.apply f o s.supply = .ok (made, supply) → r ∈ made.exprs → Derives s c.fields r
  /-- Along columns, everything that comes of an application is made of the field at its place. -/
  | applyColumns {c f made supply r field} (o : ApplyOptions) (i : Nat) : c ∈ s.collections → f ∈ s.functions →
      o.axis = .column → c.apply f o s.supply = .ok (made, supply) → c.fields[i]? = some field →
      made.exprs[i]? = some r → Derives s [field] r
  | intern {e r cache supply} (i : Nat) : s.Has e →
      (s.caches i).cache.intern e s.supply = (r, cache, supply) → Derives s [e] r

/-- What a call makes has the sources of its arguments. -/
theorem Derives.joinsSources (hreach : Reachable s) {arguments : List Expr} {r : Expr} (h : s.Derives arguments r) :
    r.JoinsSources arguments := by
  obtain ⟨heap, hsound⟩ := hreach.sound
  have hmapping : ∀ {os : List Expr}, (∃ m, r.kind = .map m) ∧ r.operands = os → r.JoinsSources os := by
    rintro os ⟨⟨m, hkind⟩, rfl⟩
    exact Expr.joinsSources_operands (by rw [hkind]; rfl)
  cases h with
  | construct k hargs hr =>
    exact Construction.joinsSources (fun a ha => hsound.history.wellTyped a (hsound.has_mem (hargs a ha))) hr
  | switch cases _ _ hr =>
    -- the check of the sources only refuses
    obtain ⟨_, _, hr⟩ := Build.check_eq_ok.mp hr
    exact Expr.switchOn_joinsSources none hr
  | applyRows o hc _ haxis hr hmem =>
    exact hmapping (Collection.operands_of_apply_rows (hsound.collections_sound _ hc) hr haxis hmem)
  | applyColumns o i hc _ haxis hr hfield hmade =>
    exact hmapping (Collection.operands_of_apply_columns (hsound.collections_sound _ hc) hr haxis hfield hmade)
  | intern i he hr =>
    obtain ⟨_, _, _, _, halike⟩ := hsound.intern_alike i he hr
    refine Expr.joinsSources_singleton.mpr ?_
    intro source
    rw [halike.sources_eq]

/-- Where an expression that a call hands out can come from: it was within reach before, or it is a column, or the call
made it out of others. -/
inductive Arises (s : Session) (e : Expr) : Prop
  | had : s.Has e → Arises s e
  | column : e.isColumn = true → Arises s e
  | derived {arguments} : s.Derives arguments e → Arises s e

/-- The fields of a new source are columns. -/
theorem isColumn_of_make {name : String} {schema : Schema} {supply : Supply} {r : Collection × Supply}
    (hr : Collection.make name schema supply = .ok r) {e : Expr} (he : e ∈ r.1.fields) : e.isColumn = true := by
  unfold Collection.make at hr
  obtain ⟨source, supply', _, hr⟩ := Build.bind_eq_ok.mp hr
  obtain ⟨fields, supply'', hfields, hr⟩ := Build.bind_eq_ok.mp hr
  rw [Build.pure_eq_ok] at hr
  subst hr
  have hcolumn : ∀ p : String × ElementType, (Expr.column p.1 source p.2).Makes fun e => e.isColumn = true := by
    intro p supply
    exact ⟨_, Build.node_eq_ok.mpr rfl, rfl⟩
  obtain ⟨_, _, he⟩ := exists_of_forall₂ ((Build.Makes.mapM hcolumn).of_eq_ok hfields) he
  exact he

omit [Hasher] in
/-- A choice of fields chooses among what is within reach. -/
theorem has_of_select {c r : Collection} (hc : c ∈ s.collections) {refs : List FieldRef}
    (hrefs : ∀ e, FieldRef.given e ∈ refs → s.Has e) (hr : c.select refs = .ok r) {e : Expr} (he : e ∈ r.fields) :
    s.Has e := by
  unfold Collection.select at hr
  obtain ⟨selected, hselected, hr⟩ := except_bind_eq_ok.mp hr
  obtain ⟨_, _, hr⟩ := except_bind_eq_ok.mp hr
  obtain ⟨_, _, hr⟩ := except_bind_eq_ok.mp hr
  cases hr
  obtain ⟨ref, href, hresolved⟩ := exists_of_forall₂ (mapM_eq_ok.mp hselected) he
  cases ref with
  | named n => exact .field hc (Collection.col_mem hresolved)
  | given g =>
    obtain ⟨_, _, hgiven⟩ := except_bind_eq_ok.mp hresolved
    cases hgiven
    exact hrefs _ href

/-- Whatever an application makes is made of fields. -/
theorem arises_of_apply (hreach : Reachable s) {c : Collection} (hc : c ∈ s.collections) {f : MapFunction}
    (hf : f ∈ s.functions) {o : ApplyOptions} {r : Applied × Supply} (hr : c.apply f o s.supply = .ok r) {e : Expr}
    (he : e ∈ r.1.exprs) : s.Arises e := by
  obtain ⟨heap, hsound⟩ := hreach.sound
  obtain ⟨_, hyields⟩ := Collection.yields_of_apply_eq_ok (hsound.collections_sound c hc) hr
  obtain ⟨made, supply⟩ := r
  cases hyields with
  | reduced haxis | expanded haxis => exact .derived (.applyRows o hc hf haxis hr he)
  | each haxis _ heach =>
    obtain ⟨i, hi⟩ := List.getElem?_of_mem he
    obtain ⟨hlt, _⟩ := List.getElem?_eq_some_iff.mp hi
    have hfield := List.getElem?_eq_getElem (Nat.lt_of_lt_of_eq hlt heach.length_eq)
    exact .derived (.applyColumns o i hc hf haxis hr hfield hi)

/-- No call hands out anything else: it adds one expression, or the fields of one collection, or neither. -/
theorem Step.arises {s' : Session} (hreach : Reachable s) (hs : Step s s') {e : Expr}
    (he : e ∈ s'.exprs ∨ ∃ c ∈ s'.collections, e ∈ c.fields) : s.Arises e := by
  have hexpr : ∀ {r}, s.Arises r → e ∈ r :: s.exprs ∨ (∃ c ∈ s.collections, e ∈ c.fields) → s.Arises e := by
    rintro r hr (he | ⟨c, hc, he⟩)
    · rcases List.mem_cons.mp he with rfl | he
      · exact hr
      · exact .had (.returned he)
    · exact .had (.field hc he)
  have hcollection : ∀ {r : Collection}, (∀ x ∈ r.fields, s.Arises x) →
      e ∈ s.exprs ∨ (∃ c ∈ r :: s.collections, e ∈ c.fields) → s.Arises e := by
    rintro r hr (he | ⟨c, hc, he⟩)
    · exact .had (.returned he)
    · rcases List.mem_cons.mp hc with rfl | hc
      · exact hr e he
      · exact .had (.field hc he)
  cases hs with
  | construct k hargs hr => exact hexpr (.derived (.construct k hargs hr)) he
  | switch cases hc hexprs hr => exact hexpr (.derived (.switch cases hc hexprs hr)) he
  | intern i hx hr => exact hexpr (.derived (.intern i hx hr)) he
  | applyToSequence o hc hf hr => exact hexpr (arises_of_apply hreach hc hf hr (List.mem_singleton_self _)) he
  | applyToCollection o hc hf hr => exact hcollection (fun x hx => arises_of_apply hreach hc hf hr hx) he
  | source name schema hr => exact hcollection (fun x hx => .column (isColumn_of_make hr hx)) he
  | select refs hc hrefs hr => exact hcollection (fun x hx => .had (has_of_select hc hrefs hr hx)) he
  | function | clear =>
    rcases he with he | ⟨c, hc, he⟩
    · exact .had (.returned he)
    · exact .had (.field hc he)

/-! ## Any number of calls -/

/-- An expression, and the columns that it was built from by any number of calls. -/
inductive BuiltFrom : List Expr → Expr → Prop
  | column {s e} : Reachable s → s.Has e → e.isColumn = true → BuiltFrom [e] e
  | call {s arguments r} (columns : Expr → List Expr) : Reachable s → s.Derives arguments r →
      (∀ a ∈ arguments, BuiltFrom (columns a) a) → BuiltFrom (arguments.flatMap columns) r

/-- The sources of an expression are those of the columns that it was built from. -/
theorem BuiltFrom.mem_sources_iff {columns : List Expr} {e : Expr} (h : BuiltFrom columns e) {source : SourceId} :
    source ∈ e.sources ↔ ∃ n ∈ columns, n.kind.source? = some source := by
  induction h with
  | @column s e hreach he hcolumn =>
    obtain ⟨heap, hsound⟩ := hreach.sound
    have hleaf : e.kind.isLeaf = true := by
      obtain ⟨name, own, hkind⟩ := Expr.isColumn_iff.mp hcolumn
      rw [hkind]
      rfl
    rw [Expr.mem_sources_iff, (hsound.history.wellTyped e (hsound.has_mem he)).operands_eq_nil hleaf]
    simp
  | call columns hreach hderives _ ih =>
    rw [hderives.joinsSources hreach]
    simp only [List.mem_flatMap]
    constructor
    · rintro ⟨a, ha, hsource⟩
      obtain ⟨n, hn, hsource⟩ := (ih a ha).mp hsource
      exact ⟨n, ⟨a, ha, hn⟩, hsource⟩
    · rintro ⟨n, ⟨a, ha, hn⟩, hsource⟩
      exact ⟨a, ha, (ih a ha).mpr ⟨n, hn, hsource⟩⟩

end Session

/-! ## Ownership -/

/-- A source of some columns that is another one is that of a column of another source. -/
theorem Expr.exists_foreign_iff {nodes : List Expr} {own : SourceId} :
    (∃ source, (∃ n ∈ nodes, n.kind.source? = some source) ∧ source ≠ own)
      ↔ ∃ n ∈ nodes, ∃ name source, n.kind = .column name source ∧ source ≠ own := by
  simp only [Kind.source?_eq_some_iff]
  constructor
  · rintro ⟨source, ⟨n, hn, name, hkind⟩, hne⟩
    exact ⟨n, hn, name, source, hkind, hne⟩
  · rintro ⟨n, hn, name, source, hkind, hne⟩
    exact ⟨source, ⟨n, hn, name, hkind⟩, hne⟩

/-- An expression is refused if it refers to another source. -/
theorem Collection.exists_checkOwned_eq_error_iff {c : Collection} {e : Expr} :
    (∃ err, c.checkOwned e = .error err) ↔ ∃ source ∈ e.sources, source ≠ c.source := by
  simp only [checkOwned_eq_error, exists_and_left, exists_eq, and_true, Expr.Over, Expr.mem_sources, not_forall,
    exists_prop]
  constructor
  · rintro ⟨n, hn, source, hsource, hne⟩
    exact ⟨source, ⟨n, hn, hsource⟩, hne⟩
  · rintro ⟨source, ⟨n, hn, hsource⟩, hne⟩
    exact ⟨n, hn, source, hsource, hne⟩

namespace Session

/-- In every reachable session, walks, sources and distinct columns of an expression are exact. The walk visits what
stands at the end of every way through the operands, each way once, in their order. The sources are those of the columns
visited. The distinct columns are the columns visited at the places where none was visited before that is equal; so no
two are equal, every column is equal to one, and their sources are all sources. Calls hand out what was within reach,
columns, and what they make of others; and what a call makes has the sources of its arguments, and no others. So a
collection refuses an expression exactly if a column in it is of another source; it refuses what a call makes exactly
if it refuses an argument; and after any number of calls exactly if one of the columns that the expression was built
from is of another source. -/
theorem reachable_traversal [Hasher] {s : Session} (h : Reachable s) :
    (∀ e, s.Has e →
      Enumerates (fun way n => e.at? way = some n) e.walk
      ∧ (e.sources.Pairwise fun a b => a.number < b.number)
      ∧ (∀ source, source ∈ e.sources ↔ ∃ n ∈ e.walk, ∃ name, n.kind = .column name source)
      ∧ Enumerates (Expr.NewColumnAt e.walk) e.columnRefs
      ∧ (e.columnRefs.Pairwise fun a b => ¬ a.same b = true)
      ∧ (∀ n ∈ e.walk, n.isColumn = true → ∃ c ∈ e.columnRefs, c.same n = true)
      ∧ ∀ source, source ∈ e.sources ↔ ∃ c ∈ e.columnRefs, ∃ name, c.kind = .column name source)
    ∧ (∀ s', Step s s' → ∀ e, (e ∈ s'.exprs ∨ ∃ c ∈ s'.collections, e ∈ c.fields) → s.Arises e)
    ∧ (∀ arguments r, s.Derives arguments r → ∀ source, source ∈ r.sources ↔ ∃ a ∈ arguments, source ∈ a.sources)
    ∧ ∀ c : Collection,
      (∀ e err, c.checkOwned e = .error err ↔ err = .foreignField e.text c.name
        ∧ ∃ n ∈ e.walk, ∃ name source, n.kind = .column name source ∧ source ≠ c.source)
      ∧ (∀ arguments r, s.Derives arguments r →
        ((∃ err, c.checkOwned r = .error err) ↔ ∃ a ∈ arguments, ∃ err, c.checkOwned a = .error err))
      ∧ ∀ columns e, BuiltFrom columns e → ((∃ err, c.checkOwned e = .error err)
        ↔ ∃ n ∈ columns, ∃ name source, n.kind = .column name source ∧ source ≠ c.source) := by
  obtain ⟨heap, hsound⟩ := h.sound
  have hheap := hsound.history
  refine ⟨?_, ?_, ?_, ?_⟩
  · intro e he
    have he := hsound.has_mem he
    refine ⟨e.walk_enumerates, e.pairwise_sources, ?_, hheap.columnRefs_enumerates he, hheap.pairwise_columnRefs he,
      ?_, ?_⟩
    · simp only [Expr.mem_sources, Kind.source?_eq_some_iff, implies_true]
    · intro n hn hcolumn
      exact hheap.exists_columnRef he hn hcolumn
    · simp only [hheap.mem_sources_iff_columnRefs he, Kind.source?_eq_some_iff, implies_true]
  · intro s' hs e he
    exact hs.arises h he
  · intro arguments r hr
    exact hr.joinsSources h
  · intro c
    refine ⟨?_, ?_, ?_⟩
    · intro e err
      rw [← Expr.exists_foreign_iff]
      simp only [← Expr.mem_sources]
      rw [← Collection.exists_checkOwned_eq_error_iff]
      simp only [Collection.checkOwned_eq_error, exists_and_left, exists_eq, and_true]
      exact and_comm
    · intro arguments r hr
      simp only [Collection.exists_checkOwned_eq_error_iff, hr.joinsSources h _]
      constructor
      · rintro ⟨source, ⟨a, ha, hsource⟩, hne⟩
        exact ⟨a, ha, source, hsource, hne⟩
      · rintro ⟨a, ha, source, hsource, hne⟩
        exact ⟨source, ⟨a, ha, hsource⟩, hne⟩
    · intro columns e hbuilt
      rw [Collection.exists_checkOwned_eq_error_iff, ← Expr.exists_foreign_iff]
      simp only [hbuilt.mem_sources_iff]

/-- A column that is filled is the only column of the outcome. Asking whether it is missing makes an expression of its
source, which a collection over another source refuses. -/
theorem reachable_traversal_orders : @Reachable Orders.collide Orders.session
    ∧ Orders.session.Has (Orders.settled 3 (Orders.no 2) none)
    ∧ Enumerates (Expr.NewColumnAt (Orders.settled 3 (Orders.no 2) none).walk) [Orders.paid]
    ∧ @Derives Orders.collide Orders.session [Orders.paid]
        (.node ⟨8⟩ 0 (.unary .isNull) .boolean .sequence none [Orders.paid])
    ∧ @BuiltFrom Orders.collide [Orders.paid]
        (.node ⟨8⟩ 0 (.unary .isNull) .boolean .sequence none [Orders.paid])
    ∧ ∃ err, (Collection.mk "customers" ⟨2⟩ Orders.schema []).checkOwned
        (.node ⟨8⟩ 0 (.unary .isNull) .boolean .sequence none [Orders.paid]) = .error err := by
  let _ : Hasher := Orders.collide
  have hreach := Orders.session_reachable
  have hsettled : Orders.session.Has (Orders.settled 3 (Orders.no 2) none) := .returned (by simp [Orders.session])
  have hpaid : Orders.session.Has Orders.paid :=
    .field (c := Orders.orders) (by simp [Orders.session]) List.mem_cons_self
  obtain ⟨hexact, _, _, hchecks⟩ := reachable_traversal hreach
  have hderives : Derives Orders.session [Orders.paid]
      (.node ⟨8⟩ 0 (.unary .isNull) .boolean .sequence none [Orders.paid]) :=
    .construct (.isNull Orders.paid) (List.forall_mem_singleton.mpr hpaid) rfl
  have hbuilt : BuiltFrom [Orders.paid] (.node ⟨8⟩ 0 (.unary .isNull) .boolean .sequence none [Orders.paid]) :=
    .call (fun a => [a]) hreach hderives (List.forall_mem_singleton.mpr (.column hreach hpaid rfl))
  refine ⟨hreach, hsettled, (hexact _ hsettled).2.2.2.1, hderives, hbuilt, ?_⟩
  refine ((hchecks _).2.2 _ _ hbuilt).mpr ⟨Orders.paid, List.mem_singleton_self _, "paid", ⟨1⟩, rfl, ?_⟩
  decide

end Session

end Columnar
