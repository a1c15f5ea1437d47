import Columnar.Proofs.Binary.Units
import Columnar.Proofs.Expr.Writing
import Columnar.Proofs.Value.Reading

/-!
# `Proofs.Expr.Document` — what the document of an expression determines

A document leaves out three things: which of the functions of one name is called, which of the floats that are
not finite stands there, and whether a moment has a second among its nanoseconds. Where neither of the first two
occurs, the document shows the whole expression, apart from the identities and hashes of its nodes and from that
second.

## Contents
- `tag_injective`: what can be read back is told apart.
- `Value.isFinite`, `Value.carried_eq_of_toJson_eq`: constants.
- `Bins.carried_eq_of_toJson_eq`, `Kind.carried_eq_of_toJson_eq`: kinds with their payloads.
- `Expr.Plain`, `Expr.Plain.carried_values_eq`, `Expr.Plain.alike_of_toJson_eq`: expressions.
-/

namespace Columnar

/-! ## Texts that can be read -/

/-- What is read back from its text has a text of its own. -/
theorem injective_of_read {α : Type} {write : α → String} (read? : String → Option α)
    (h : ∀ a, read? (write a) = some a) : Function.Injective write := by
  intro a b hab
  have hread := h a
  rw [hab, h b, Option.some.injEq] at hread
  exact hread.symm

theorem ElementType.tag_injective : Function.Injective tag := injective_of_read ofTag? ofTag?_tag

theorem Shape.tag_injective : Function.Injective tag := injective_of_read ofTag? ofTag?_tag

theorem UnaryOperator.tag_injective : Function.Injective tag := injective_of_read ofTag? ofTag?_tag

theorem BinaryOperator.tag_injective : Function.Injective tag := injective_of_read ofTag? ofTag?_tag

theorem Reduction.tag_injective : Function.Injective tag := injective_of_read ofTag? ofTag?_tag

/-! ## Values -/

namespace Value

/-- Whether a value is no infinity and no NaN. -/
def isFinite : Value → Bool
  | float _ x => x.isFinite
  | _ => true

/-- A finite float is written as a double. -/
theorem payloadJson_float {f : FloatFormat} {x : Binary f} (hx : x.isFinite = true) :
    (float f x).payloadJson = .float (x.convert .double) :=
  if_pos (Binary.units_convert_double hx).1

/-- Finite values of one document are one value, or moments that differ in where they count a second. -/
theorem carried_eq_of_toJson_eq {v w : Value} (hv : v.isFinite = true) (hw : w.isFinite = true)
    (h : v.toJson = w.toJson) : v.carried = w.carried := by
  simp only [toJson, Json.object.injEq, List.cons.injEq, Prod.mk.injEq, and_true] at h
  obtain ⟨htag, hpayload⟩ := h
  have htype : v.type = w.type := ElementType.tag_injective htag
  cases v <;> cases w <;> cases htype
  case boolean.boolean.refl => exact congrArg boolean (Json.bool.inj hpayload)
  case int.int.refl m n =>
    obtain ⟨m, hm⟩ := m
    obtain ⟨n, hn⟩ := n
    obtain rfl : m = n := Json.int.inj hpayload
    rfl
  case float.float.refl x y =>
    rw [payloadJson_float hv, payloadJson_float hw] at hpayload
    exact congrArg (float _) (Binary.convert_double_inj hv hw (Json.float.inj hpayload))
  case decimal.decimal.refl => exact congrArg decimal (Decimal.text_injective (Json.string.inj hpayload))
  case string.string.refl => exact congrArg string (Json.string.inj hpayload)
  case datetime.datetime.refl => exact congrArg datetime (Datetime.isoText_eq_iff.mp (Json.string.inj hpayload))

end Value

/-! ## Kinds -/

/-- Lists with one image are related item by item, if that is so of any two items with one image. -/
theorem forall₂_of_map_eq {α β γ : Type} {R : α → β → Prop} {f : α → γ} {g : β → γ} {as : List α}
    {bs : List β} (h : as.map f = bs.map g) (hR : ∀ a ∈ as, ∀ b ∈ bs, f a = g b → R a b) :
    List.Forall₂ R as bs := by
  rw [← List.forall₂_eq_eq_eq, List.forall₂_map_left_iff, List.forall₂_map_right_iff] at h
  exact forall₂_imp_of_mem h hR

/-- What two items of one image share, lists of one image share item by item. -/
theorem map_eq_of_map_eq {α β γ : Type} {f : α → β} {g : α → γ} {as bs : List α} (h : as.map f = bs.map f)
    (hfg : ∀ a ∈ as, ∀ b ∈ bs, f a = f b → g a = g b) : as.map g = bs.map g :=
  map_eq_of_forall₂ (forall₂_of_map_eq h fun _ _ _ _ hab => hab) hfg

/-- Bins of one document have the same edges, but for seconds, and are the same if their edges are. -/
theorem Bins.carried_eq_of_toJson_eq {a b : Bins} (ha : ∀ v ∈ a.edges, v.isFinite = true)
    (hb : ∀ v ∈ b.edges, v.isFinite = true) (h : a.toJson = b.toJson) :
    a.edges.map Value.carried = b.edges.map Value.carried ∧ (a.edges = b.edges → a = b) := by
  simp only [toJson, Json.object.injEq, List.cons.injEq, Prod.mk.injEq, and_true, true_and, Json.array.injEq,
    Json.bool.injEq] at h
  obtain ⟨hedges, hlabels, hright, hlowest, hunder, hover⟩ := h
  have hlabels : a.labels = b.labels := List.map_injective_iff.mpr (fun _ _ => Json.string.inj) hlabels
  constructor
  · exact map_eq_of_map_eq hedges fun v hv w hw => Value.carried_eq_of_toJson_eq (ha v hv) (hb w hw)
  · intro hedges
    cases a
    cases b
    rw [Bins.mk.injEq]
    exact ⟨hedges, hlabels, hright, hlowest, hunder, hover⟩

/-- Kinds of one document, without a user function and with finite values, have the same values, but for seconds,
and are the same if their values are. -/
theorem Kind.carried_eq_of_toJson_eq {k l : Kind} (hk : k.mapping? = none) (hl : l.mapping? = none)
    (hkv : ∀ v ∈ k.values, v.isFinite = true) (hlv : ∀ v ∈ l.values, v.isFinite = true)
    (h : k.toJson = l.toJson) :
    k.values.map Value.carried = l.values.map Value.carried ∧ (k.values = l.values → k = l) := by
  -- kinds of different names have different tags, and of one name they differ in their payloads
  cases k <;> cases l <;>
    simp only [toJson, Json.object.injEq, List.cons.injEq, Prod.mk.injEq, Json.string.injEq, Json.bool.injEq,
      Json.int.injEq, String.reduceEq, reduceCtorEq, and_true, true_and, false_and] at h
  case column.column =>
    obtain ⟨rfl, hsource⟩ := h
    exact ⟨rfl, fun _ => congrArg (column _) ((SourceId.mk.injEq ..).mpr (Int.ofNat.inj hsource))⟩
  case literal.literal =>
    have hcarried := Value.carried_eq_of_toJson_eq (hkv _ List.mem_cons_self) (hlv _ List.mem_cons_self) h
    exact ⟨congrArg (fun v => [v]) hcarried, fun hvalues => congrArg literal (List.cons.inj hvalues).1⟩
  case cut.cut =>
    obtain ⟨hcarried, heq⟩ := Bins.carried_eq_of_toJson_eq hkv hlv h
    exact ⟨hcarried, fun hedges => congrArg cut (heq hedges)⟩
  case unary.unary => exact ⟨rfl, fun _ => congrArg unary (UnaryOperator.tag_injective h)⟩
  case binary.binary => exact ⟨rfl, fun _ => congrArg binary (BinaryOperator.tag_injective h)⟩
  case reduce.reduce => exact ⟨rfl, fun _ => congrArg reduce (Reduction.tag_injective h)⟩
  case membership.membership => exact ⟨rfl, fun _ => congrArg membership h⟩
  case between.between => exact ⟨rfl, fun _ => congrArg between h⟩
  case switch.switch => exact ⟨rfl, fun _ => (switch.injEq ..).mpr h⟩
  case fillMissing.fillMissing | conditional.conditional | cast.cast => exact ⟨rfl, fun _ => rfl⟩
  case map.map => cases hk

/-! ## Expressions -/

namespace Expr

/-- An expression that calls no user function and has no infinity and no NaN among its values. -/
def Plain (e : Expr) : Prop :=
  ∀ n ∈ e.walk, n.kind.mapping? = none ∧ ∀ v ∈ n.kind.values, v.isFinite = true

variable {a b : Expr}

theorem Plain.operand {o : Expr} (h : a.Plain) (ho : o ∈ a.operands) : o.Plain :=
  fun n hn => h n (mem_walk_of_operand ho hn)

/-- A document shows all parts of a node, and the documents of its operands. -/
theorem parts_eq_of_toJson_eq (h : a.toJson = b.toJson) : a.kind.toJson = b.kind.toJson ∧ a.type = b.type
    ∧ a.shape = b.shape ∧ a.givenName = b.givenName ∧ a.operands.map toJson = b.operands.map toJson := by
  rw [toJson_eq a, toJson_eq b] at h
  simp only [Json.object.injEq, List.cons.injEq, Prod.mk.injEq, Json.array.injEq, and_true, true_and] at h
  obtain ⟨hkind, htype, hshape, hname, hoperands⟩ := h
  have hname : a.givenName = b.givenName := by
    revert hname
    cases a.givenName <;> cases b.givenName <;> simp [Json.ofOption]
  exact ⟨hkind, ElementType.tag_injective (Json.string.inj htype), Shape.tag_injective (Json.string.inj hshape),
    hname, hoperands⟩

/-- The nodes of plain expressions of one document. -/
theorem Plain.kind_of_toJson_eq (ha : a.Plain) (hb : b.Plain) (h : a.toJson = b.toJson) :
    a.kind.values.map Value.carried = b.kind.values.map Value.carried
      ∧ (a.kind.values = b.kind.values → a.kind = b.kind) := by
  obtain ⟨hak, hav⟩ := ha a (mem_walk_self a)
  obtain ⟨hbk, hbv⟩ := hb b (mem_walk_self b)
  exact Kind.carried_eq_of_toJson_eq hak hbk hav hbv (parts_eq_of_toJson_eq h).1

/-- Plain expressions of one document have the same values, but for seconds. -/
theorem Plain.carried_values_eq (ha : a.Plain) (hb : b.Plain) (h : a.toJson = b.toJson) :
    a.values.map Value.carried = b.values.map Value.carried := by
  induction a using Expr.induction generalizing b with
  | step a ih =>
    obtain ⟨_, _, _, _, hoperands⟩ := parts_eq_of_toJson_eq h
    have hvalues : a.operands.map (fun o => o.values.map Value.carried)
        = b.operands.map fun o => o.values.map Value.carried :=
      map_eq_of_map_eq hoperands fun x hx y hy hxy => ih x hx (ha.operand hx) (hb.operand hy) hxy
    rw [values_eq a, values_eq b, List.map_append, List.map_append, (ha.kind_of_toJson_eq hb h).1,
      List.map_flatMap, List.map_flatMap, List.flatMap_def, List.flatMap_def, hvalues]

/-- Plain expressions of one document with the same values are equal all the way down. -/
theorem Plain.alike_of_toJson_eq (ha : a.Plain) (hb : b.Plain) (h : a.toJson = b.toJson)
    (hvalues : a.values = b.values) : a.Alike b := by
  induction a using Expr.induction generalizing b with
  | step a ih =>
    obtain ⟨_, htype, hshape, hname, hoperands⟩ := parts_eq_of_toJson_eq h
    obtain ⟨hcarried, hkind⟩ := ha.kind_of_toJson_eq hb h
    -- lists that differ in seconds only are as long as each other
    have hlength : a.kind.values.length = b.kind.values.length := by
      simpa only [List.length_map] using congrArg List.length hcarried
    have hlengths : a.operands.map (fun o => o.values.length) = b.operands.map fun o => o.values.length := by
      refine map_eq_of_map_eq hoperands fun x hx y hy hxy => ?_
      simpa only [List.length_map] using congrArg List.length ((ha.operand hx).carried_values_eq (hb.operand hy) hxy)
    obtain ⟨hhere, hbelow⟩ := (values_eq_iff_of_lengths hlength hlengths).mp hvalues
    refine .node (hkind hhere ▸ .rfl) htype hshape hname ?_
    have hdocuments := forall₂_of_map_eq (R := fun x y => x.toJson = y.toJson) hoperands fun _ _ _ _ hxy => hxy
    exact forall₂_imp_of_mem (forall₂_and_of_map_eq hdocuments hbelow)
      fun x hx y hy ⟨hxy, hv⟩ => ih x hx (ha.operand hx) (hb.operand hy) hxy hv

end Expr

end Columnar
