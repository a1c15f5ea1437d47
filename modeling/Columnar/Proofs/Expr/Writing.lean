import Columnar.Expr.Json
import Columnar.Proofs.Decimal.Writing
import Columnar.Proofs.Expr.Alike

/-!
# `Proofs.Expr.Writing` — what the text and the document of an expression show

Equal literals are written alike, with one exception: decimals are equal as numbers and written with all their
places. So two expressions that are equal all the way down are written alike exactly if the decimals in them,
as literals and as edges of bins, are the same decimals.

## Contents
- `Value.decimal?`, `Kind.values`, `Expr.values`, `Expr.decimals`: the values in an expression.
- `Value.Alike.eq_or_decimal`, `Value.Alike.toJson_eq_iff`: equal values are one value or two decimals, and then
  their documents differ.
- `Kind.Alike.write_eq`, `Kind.Alike.toJson_eq_iff`: the same of kinds.
- `Expr.Alike.written_iff`: the same of expressions, for text and document.
-/

namespace Columnar

/-! ## Values -/

/-- The decimal that a value is. -/
def Value.decimal? : Value → Option Decimal
  | decimal d => some d
  | _ => none

/-- The values in the payload of a kind. -/
def Kind.values : Kind → List Value
  | literal v => [v]
  | cut bins => bins.edges
  | _ => []

/-- The values in an expression, node by node. -/
def Expr.values (e : Expr) : List Value := e.walk.flatMap fun n => n.kind.values

/-- The decimals among the values in an expression. -/
def Expr.decimals (e : Expr) : List Decimal := e.values.filterMap Value.decimal?

section

variable {v w : Value} {vs ws : List Value}

/-- Equal values are one value if they are not two decimals. -/
theorem Value.Alike.eq_or_decimal (h : v.Alike w) :
    v = w ∨ ∃ a b, v = .decimal a ∧ w = .decimal b ∧ a.sameNumber b = true :=
  same_iff.mp (same_iff_alike.mpr h)

theorem Value.Alike.decimal?_eq_iff (h : v.Alike w) : v.decimal? = w.decimal? ↔ v = w := by
  rcases h.eq_or_decimal with rfl | ⟨a, b, rfl, rfl, _⟩
  · exact iff_of_true rfl rfl
  · simp only [decimal?, Option.some.injEq, decimal.injEq]

/-- Equal values have one document only if they are one value. -/
theorem Value.Alike.toJson_eq_iff (h : v.Alike w) : v.toJson = w.toJson ↔ v = w := by
  rcases h.eq_or_decimal with rfl | ⟨a, b, rfl, rfl, hnumber⟩
  · exact iff_of_true rfl rfl
  · simp only [toJson, payloadJson, type, Json.object.injEq, List.cons.injEq, Prod.mk.injEq,
      Json.string.injEq, and_true, true_and, decimal.injEq]
    exact Decimal.text_eq_iff hnumber

/-- Among equal values, it is enough to compare the decimals. -/
theorem filterMap_decimal?_eq_iff (h : List.Forall₂ Value.Alike vs ws) :
    vs.filterMap Value.decimal? = ws.filterMap Value.decimal? ↔ vs = ws := by
  constructor
  · intro heq
    induction h with
    | nil => rfl
    | @cons v w vs ws hvw _ ih =>
      have hboth : v.decimal? = w.decimal? ∧ vs.filterMap Value.decimal? = ws.filterMap Value.decimal? := by
        -- a value is a decimal exactly if the one it is equal to is
        cases hvw with
        | decimal _ => exact (List.cons.inj heq).imp_left (congrArg some)
        | boolean | int | float | string | datetime => exact ⟨rfl, heq⟩
      rw [hvw.decimal?_eq_iff.mp hboth.1, ih hboth.2]
  · intro heq
    rw [heq]

end

/-! ## Kinds -/

/-- Equal bins are one if they have the same edges. -/
theorem Bins.Alike.eq_of_edges {a b : Bins} (h : a.Alike b) (hedges : a.edges = b.edges) : a = b := by
  cases a
  cases b
  rw [Bins.mk.injEq]
  exact ⟨hedges, h.labels, h.right, h.includeLowest, h.includeUnder, h.includeOver⟩

namespace Kind

variable {k l : Kind}

theorem Alike.values (h : k.Alike l) : List.Forall₂ Value.Alike k.values l.values := by
  cases h with
  | rfl => exact List.forall₂_same.mpr fun v _ => Value.same_iff_alike.mp (Value.same_refl v)
  | literal hvw => exact .cons hvw .nil
  | cut hab => exact hab.edges
  | map _ => exact .nil

/-- Equal kinds with the same values are one kind, or call one function. -/
theorem eq_or_map_of_alike (h : k.Alike l) (hv : k.values = l.values) :
    k = l ∨ ∃ m n : Mapping, k = .map m ∧ l = .map n ∧ m.Alike n := by
  cases h with
  | rfl => exact Or.inl rfl
  | literal _ => exact Or.inl (congrArg Kind.literal (List.cons.inj hv).1)
  | cut hab => exact Or.inl (congrArg Kind.cut (hab.eq_of_edges hv))
  | map hmn => exact Or.inr ⟨_, _, rfl, rfl, hmn⟩

/-- Nothing but the values can make a difference to the text of a node. -/
theorem Alike.write_eq (h : k.Alike l) (hv : k.values = l.values) (t : ElementType) (texts : List String) :
    k.write t texts = l.write t texts := by
  rcases eq_or_map_of_alike h hv with rfl | ⟨m, n, rfl, rfl, hmn⟩
  · rfl
  · simp only [write, hmn.name]

/-- A document shows the values of a kind. -/
theorem Alike.toJson_eq_iff (h : k.Alike l) : k.toJson = l.toJson ↔ k.values = l.values := by
  constructor
  · intro hjson
    cases h with
    | rfl => rfl
    | literal hvw =>
      simp only [toJson, Json.object.injEq, List.cons.injEq, Prod.mk.injEq, and_true, true_and] at hjson
      unfold Kind.values
      rw [hvw.toJson_eq_iff.mp hjson]
    | @cut a b hab =>
      simp only [toJson, Bins.toJson, Json.object.injEq, List.cons.injEq, Prod.mk.injEq, and_true,
        true_and, Json.array.injEq] at hjson
      have hedges := (map_eq_iff_of_forall₂ (g := id) hab.edges
        fun _ _ _ _ hvw => hvw.toJson_eq_iff).mp hjson.1
      simpa only [Kind.values, List.map_id] using hedges
    | map _ => rfl
  · intro hv
    rcases eq_or_map_of_alike h hv with rfl | ⟨m, n, rfl, rfl, hmn⟩
    · rfl
    · simp only [toJson, Mapping.toJson, hmn.name, hmn.axis, hmn.outputIndex]

end Kind

/-! ## Expressions -/

namespace Expr

variable {a b : Expr}

theorem values_eq (e : Expr) : e.values = e.kind.values ++ e.operands.flatMap values := by
  unfold values
  rw [walk_eq_cons, List.flatMap_cons, List.flatMap_assoc]

theorem text_eq (e : Expr) : e.text = e.kind.write e.type (e.operands.map text)
    ++ (match e.givenName with | some name => " AS " ++ name | none => "") := by
  cases e
  simp only [text, textList_eq_map]
  rfl

theorem toJson_eq (e : Expr) : e.toJson = .object [("kind", e.kind.toJson), ("data_type", e.type.toJson),
    ("shape", e.shape.toJson), ("alias", .ofOption .string e.givenName),
    ("operands", .array (e.operands.map toJson))] := by
  cases e
  rw [toJson, toJsonList_eq_map]
  rfl

/-- The values of an expression are those of its node and those of each operand: lists of the same lengths make
up the two lists. -/
theorem values_eq_iff_of_lengths (hkind : a.kind.values.length = b.kind.values.length)
    (hoperands : a.operands.map (fun o => o.values.length) = b.operands.map fun o => o.values.length) :
    a.values = b.values ↔ a.kind.values = b.kind.values ∧ a.operands.map values = b.operands.map values := by
  have hlengths : (a.operands.map values).map List.length = (b.operands.map values).map List.length := by
    rw [List.map_map, List.map_map]
    exact hoperands
  rw [values_eq a, values_eq b, List.flatMap_def, List.flatMap_def, List.eq_iff_flatten_eq]
  constructor
  · intro heq
    obtain ⟨hk, hos⟩ := List.append_inj heq hkind
    exact ⟨hk, hos, hlengths⟩
  · rintro ⟨hk, hos, _⟩
    rw [hk, hos]

namespace Alike

theorem values (h : a.Alike b) : List.Forall₂ Value.Alike a.values b.values :=
  List.rel_flatMap h.walk fun _ _ hmn => hmn.kind.values

theorem decimals_eq_iff (h : a.Alike b) : a.decimals = b.decimals ↔ a.values = b.values :=
  filterMap_decimal?_eq_iff h.values

theorem values_eq_iff (h : a.Alike b) : a.values = b.values
    ↔ a.kind.values = b.kind.values ∧ a.operands.map Expr.values = b.operands.map Expr.values :=
  values_eq_iff_of_lengths h.kind.values.length_eq
    (map_eq_of_forall₂ h.operands fun _ _ _ _ hxy => hxy.values.length_eq)

/-- Node by node, the values are the same if they are the same as a whole. -/
theorem walk_values (h : a.Alike b) (hv : a.values = b.values) :
    List.Forall₂ (fun m n => m.Alike n ∧ m.values = n.values) a.walk b.walk := by
  induction a using Expr.induction generalizing b with
  | step a ih =>
    obtain ⟨_, hos⟩ := h.values_eq_iff.mp hv
    have hwalks := forall₂_imp_of_mem (forall₂_and_of_map_eq h.operands hos)
      fun x hx _ _ ⟨hxy, hvalues⟩ => ih x hx hxy hvalues
    rw [walk_eq_cons a, walk_eq_cons b]
    exact .cons ⟨h, hv⟩ (List.rel_flatMap hwalks fun _ _ hxy => hxy)

theorem text_eq (h : a.Alike b) (hv : a.values = b.values) : a.text = b.text := by
  induction a using Expr.induction generalizing b with
  | step a ih =>
    obtain ⟨hk, hos⟩ := h.values_eq_iff.mp hv
    have htexts := map_eq_of_forall₂ (forall₂_and_of_map_eq h.operands hos)
      fun x hx _ _ ⟨hxy, hvalues⟩ => ih x hx hxy hvalues
    obtain ⟨hkind, ht, _, hn, _⟩ := h
    rw [Expr.text_eq a, Expr.text_eq b, hkind.write_eq hk, ht, hn, htexts]

theorem toJson_eq_iff (h : a.Alike b) : a.toJson = b.toJson ↔ a.values = b.values := by
  induction a using Expr.induction generalizing b with
  | step a ih =>
    have hoperands := map_eq_iff_of_forall₂ h.operands fun x hx _ _ hxy => ih x hx hxy
    rw [h.values_eq_iff, ← h.kind.toJson_eq_iff, ← hoperands]
    obtain ⟨_, ht, hs, hn, _⟩ := h
    rw [toJson_eq a, toJson_eq b, ht, hs, hn]
    simp only [Json.object.injEq, List.cons.injEq, Prod.mk.injEq, Json.array.injEq, and_true, true_and]

/-- Expressions that are equal all the way down have one text and one document exactly if they have the same
decimals. -/
theorem written_iff (h : a.Alike b) : a.text = b.text ∧ a.toJson = b.toJson ↔ a.decimals = b.decimals := by
  rw [h.decimals_eq_iff, h.toJson_eq_iff]
  constructor
  · rintro ⟨_, hv⟩
    exact hv
  · intro hv
    exact ⟨h.text_eq hv, hv⟩

end Alike

end Expr

end Columnar
