import Columnar.Proofs.Collection.Application
import Columnar.Proofs.Session.Invariant

/-!
# `Proofs.Session.Derivation` — collections made from collections within reach

What a choice of fields and an application of a function come to rests on what every collection within reach keeps:
its schema describes its fields, place by place, and all columns in them are columns of its source.

## Contents
- `reachable_select`: when a choice of fields succeeds, what it makes, and which refusal is reported.
- `reachable_apply`: the same for an application of a function.
-/

namespace Columnar.Session

/-- A choice of fields succeeds exactly if there is a reference, every name is the name of a field, every expression
is over the source, and the fields are named distinctly. They are then the fields of a collection over the same source
and of the same name, as they were found or given and in their order. Otherwise the first reference that is not taken
is reported, whatever is wrong with names. And to choose among names that were chosen before is to choose among all. -/
theorem reachable_select [Hasher] {s : Session} (h : Reachable s) {c : Collection} (hc : c ∈ s.collections) :
    (∀ refs, ((∃ r, c.select refs = .ok r) ↔ refs ≠ [] ∧ (∀ ref ∈ refs, c.Takes ref)
          ∧ ∃ es, List.Forall₂ c.Chooses refs es ∧ Expr.DistinctlyNamed es)
      ∧ (∀ r, c.select refs = .ok r → r.source = c.source ∧ r.name = c.name
          ∧ List.Forall₂ c.Chooses refs r.fields ∧ List.Forall₂ Collection.Labels r.schema.fields r.fields)
      ∧ ∀ err, c.select refs = .error err ↔ c.RefusesChoice refs err)
    ∧ ∀ (before names : List String) a, names ⊆ before → c.select (before.map .named) = .ok a →
        a.select (names.map .named) = c.select (names.map .named) := by
  obtain ⟨heap, hsound⟩ := h.sound
  have hc := hsound.collections_sound c hc
  refine ⟨fun refs => ⟨Collection.exists_select_iff hc, fun r hr => ?_, fun err => Collection.select_eq_error hc⟩, ?_⟩
  · obtain ⟨_, _, hchosen, hlabels, hname, hsource⟩ := (Collection.select_eq_ok hc).mp hr
    exact ⟨hsource, hname, hchosen, hlabels⟩
  · intro before names a hsub ha
    exact Collection.select_select hc ha hsub

/-- Both fields can be chosen in the other order. A literal has no name, which is reported before a name that comes
twice behind it, but not before a name that is unknown. -/
theorem reachable_select_report : @Reachable Orders.collide Orders.session
    ∧ Orders.report ∈ Orders.session.collections
    ∧ (∃ r, Orders.report.select [.named "settled", .named "paid"] = .ok r)
    ∧ Orders.report.select [.named "paid", .given (Orders.no 1), .named "paid"]
      = .error (.invalidArgument "select" "false needs a name, use rename()")
    ∧ Orders.report.select [.given (Orders.no 1), .named "due"] = .error (.fieldNotFound "due" "orders") := by
  have hselect := (@reachable_select Orders.collide _ Orders.session_reachable Orders.report List.mem_cons_self).1
  have hpaid : Orders.report.Chooses (.named "paid") Orders.paid := .named (i := 0) rfl rfl
  have hsettled : Orders.report.Chooses (.named "settled") (Orders.settled 7 (Orders.no 2) (some "settled")) :=
    .named (i := 1) rfl rfl
  have hover : (Orders.no 1).Over Orders.report.source := Expr.over_iff.mpr ⟨nofun, nofun⟩
  have hunnamed : Orders.report.RefusesChoice [.named "paid", .given (Orders.no 1), .named "paid"]
      (.invalidArgument "select" ((Orders.no 1).text ++ " needs a name, use rename()")) := by
    have hchosen : List.Forall₂ Orders.report.Chooses [.named "paid", .given (Orders.no 1), .named "paid"]
        ([Orders.paid] ++ Orders.no 1 :: [Orders.paid]) := .cons hpaid (.cons .given (.cons hpaid .nil))
    refine .unnamed ?_ hchosen ⟨?_, List.nodup_singleton _⟩ rfl
    · simp only [List.forall_mem_cons]
      exact ⟨rfl, hover, rfl, nofun⟩
    · exact List.forall_mem_singleton.mpr ⟨"paid", rfl⟩
  have hunknown : Orders.report.RefusesChoice [.given (Orders.no 1), .named "due"]
      (Orders.report.refusal (.named "due")) :=
    .notTaken ⟨[.given (Orders.no 1)], [], rfl, List.forall_mem_singleton.mpr hover, nofun⟩
  have htext : (Orders.no 1).text = "false" := by decide
  rw [htext] at hunnamed
  have hdistinct : Expr.DistinctlyNamed [Orders.settled 7 (Orders.no 2) (some "settled"), Orders.paid] := by
    refine ⟨?_, by decide⟩
    simp only [List.forall_mem_cons]
    exact ⟨⟨_, rfl⟩, ⟨_, rfl⟩, nofun⟩
  have htakes : ∀ ref ∈ [FieldRef.named "settled", .named "paid"], Orders.report.Takes ref := by
    simp only [List.forall_mem_cons]
    exact ⟨rfl, rfl, nofun⟩
  exact ⟨Orders.session_reachable, List.mem_cons_self,
    (hselect _).1.mpr ⟨nofun, htakes, _, .cons hsettled (.cons hpaid .nil), hdistinct⟩,
    ((hselect _).2.2 _).mpr hunnamed, ((hselect _).2.2 _).mpr hunknown⟩

/-- A function can be applied to a collection exactly if that has fields and the names and types suit the way in which
it is applied, and then makes the mapping nodes of that way. Any other application is refused, for the first reason
there is. Of the two checks that look at the fields neither ever fails: no field has columns of another source, and the
only argument that is invalid is the wish to reduce columns, so no field lacks a name. -/
theorem reachable_apply [Hasher] {s : Session} (h : Reachable s) {c : Collection} (hc : c ∈ s.collections)
    (f : MapFunction) (o : ApplyOptions) (supply : Supply) :
    ((∃ r, c.apply f o supply = .ok r) ↔ c.fields ≠ [] ∧ c.AcceptsFunction o)
      ∧ (∀ r, c.apply f o supply = .ok r → c.Yields f o r.1)
      ∧ (∀ err, c.apply f o supply = .error err ↔ c.RefusesFunction o err)
      ∧ (∀ expression collection, c.apply f o supply ≠ .error (.foreignField expression collection))
      ∧ ∀ operator reason, c.apply f o supply = .error (.invalidArgument operator reason) →
        o.axis = .column ∧ o.reduce = true
          ∧ reason = "reducing along the column axis aggregates a whole field, not a row" := by
  obtain ⟨heap, hsound⟩ := h.sound
  have hc := hsound.collections_sound c hc
  have hok : ∀ {r}, c.apply f o supply = .ok r → c.fields ≠ [] ∧ c.AcceptsFunction o := by
    intro r hr
    refine (c.accepts_or_refuses o).resolve_right ?_
    rintro ⟨err, hrefuses⟩
    rw [Collection.apply_of_refuses hc hrefuses] at hr
    cases hr
  have herror : ∀ {err}, c.apply f o supply = .error err → c.RefusesFunction o err := by
    intro err herr
    rcases c.accepts_or_refuses o with ⟨hne, haccepts⟩ | ⟨err', hrefuses⟩
    · obtain ⟨r, hr, _⟩ := Collection.apply_makes (f := f) hc hne haccepts supply
      rw [hr] at herr
      cases herr
    · rw [Collection.apply_of_refuses hc hrefuses] at herr
      cases herr
      exact hrefuses
  refine ⟨⟨fun ⟨r, hr⟩ => hok hr, ?_⟩, ?_, ?_, ?_, ?_⟩
  · rintro ⟨hne, haccepts⟩
    obtain ⟨r, hr, _⟩ := Collection.apply_makes (f := f) hc hne haccepts supply
    exact ⟨r, hr⟩
  · intro r hr
    obtain ⟨hne, haccepts⟩ := hok hr
    exact (Collection.apply_makes hc hne haccepts).of_eq_ok hr
  · exact fun err => ⟨herror, Collection.apply_of_refuses hc⟩
  · intro expression collection herr
    cases herror herr
  · intro operator reason herr
    cases herror herr with
    | reducedColumn _ haxis hreduce => exact ⟨haxis, hreduce, rfl⟩

/-- Two fields can be mapped under two names. A name that comes twice is refused, but only if there are as many types as
are asked for. -/
theorem reachable_apply_report : @Reachable Orders.collide Orders.session
    ∧ Orders.report ∈ Orders.session.collections
    ∧ (∃ r, @Collection.apply Orders.collide Orders.report ⟨"negate", ⟨0⟩, fun _ => none⟩
        { names := ["open", "due"] } {} = .ok r)
    ∧ @Collection.apply Orders.collide Orders.report ⟨"negate", ⟨0⟩, fun _ => none⟩
        { names := ["open", "open"], types := [.boolean] } {} = .error (.duplicateField "open")
    ∧ @Collection.apply Orders.collide Orders.report ⟨"negate", ⟨0⟩, fun _ => none⟩
        { names := ["open", "open"], types := [.boolean, .boolean, .string] } {}
      = .error (.argumentCount "apply" "0, 1 or 2 output types" 3) := by
  have happly := fun o => @reachable_apply Orders.collide _ Orders.session_reachable Orders.report List.mem_cons_self
    ⟨"negate", ⟨0⟩, fun _ => none⟩ o {}
  have hfields : Orders.report.fields ≠ [] := nofun
  have hrepeat : Schema.FirstRepeat ["open", "open"] "open" :=
    ⟨["open"], [], rfl, List.nodup_singleton _, List.mem_singleton_self _⟩
  refine ⟨Orders.session_reachable, List.mem_cons_self, (happly _).1.mpr ⟨hfields, ?_⟩, ((happly _).2.2.1 _).mpr ?_,
    ((happly _).2.2.1 _).mpr ?_⟩
  · exact .each rfl rfl (.inl (Nat.zero_le 1)) (.inr rfl) (by decide)
  · exact .repeatedName hfields rfl rfl (.inl (Nat.le_refl 1)) (.inr rfl) hrepeat
  · exact .typeCount hfields rfl rfl (mt Collection.typesFit_iff.mpr (by decide))

end Columnar.Session
