import Columnar.Proofs.Cache.Sharing
import Columnar.Proofs.Expr.Alike
import Mathlib.Data.Set.Card

/-!
# `Proofs.Cache.Contents` — what interning puts in and what it gives back

Interning looks up one node for each node of the expression, the operands first. Each look-up either finds the
one cached node that is equal, or puts in the node it was made for. So nothing comes into the cache that is not
equal to a node of the expression; what is there already is found again, without a change; and where nothing
equal is there, every node is kept as it is.

## Contents
- `contains_iff`, `Shared.find?_eq`: what a look-up finds.
- `Shared.eq_of_alike`: a cache has one node for each content.
- `intern_origin`: where the nodes of the cache come from.
- `intern_alike`: what comes back is equal to what was interned.
- `intern_eq_of_mem`: interning what is there gives it back.
- `Keeps`, `intern_keeps`: interning what is new keeps its nodes.
- `Shared.size_eq`: the size counts the contents of the nodes.
-/

namespace Columnar.Cache

/-! ## Looking up -/

section

variable {c : Cache} {e n : Expr}

theorem contains_iff : c.contains e = true ↔ ∃ n ∈ c.nodes, n.same e = true := by
  unfold contains find?
  exact List.find?_isSome

/-- Sharing puts in at most the node itself. -/
theorem mem_share (hn : n ∈ (c.share e).2.nodes) : n ∈ c.nodes ∨ n = e := by
  unfold share at hn
  cases hf : c.find? e with
  | some found =>
    rw [hf] at hn
    exact Or.inl hn
  | none =>
    rw [hf] at hn
    exact (List.mem_append.mp hn).imp_right List.mem_singleton.mp

variable [Hasher] {catalog : Catalog} {heap : List Expr} {s : Supply}

/-- A look-up finds the node that is equal, since there is only one. -/
theorem Shared.find?_eq (hc : c.Shared heap) (h : Heap catalog heap s) (he : e ∈ heap)
    (hn : n ∈ c.nodes) (hne : n.same e = true) : c.find? e = some n := by
  cases hf : c.find? e with
  | none => exact absurd hne (find?_eq_none hf n hn)
  | some found =>
    obtain ⟨hmem, hsame⟩ := find?_eq_some hf
    have hfound := h.same_trans (hc.nodes_subset hmem) he (hc.nodes_subset hn) hsame (Expr.same_symm hne)
    rw [hc.eq_of_same hmem hn hfound]

/-- Nodes of a cache that are equal all the way down are one node. -/
theorem Shared.eq_of_alike (hc : c.Shared heap) (h : Heap catalog heap s) {a b : Expr} (ha : a ∈ c.nodes)
    (hb : b ∈ c.nodes) (hab : a.Alike b) : a = b :=
  hc.eq_of_same ha hb ((h.same_iff_alike (hc.nodes_subset ha) (hc.nodes_subset hb)).mpr hab)

theorem Shared.share_eq (hc : c.Shared heap) (h : Heap catalog heap s) (he : e ∈ heap)
    (hn : n ∈ c.nodes) (hne : n.same e = true) : c.share e = (n, c) := by
  unfold share
  rw [hc.find?_eq h he hn hne]

end

/-! ## Where the nodes come from -/

/-- A node of an expression, or that node made again over equal operands. -/
def Remade (n e : Expr) : Prop := ∃ m ∈ e.walk, n.same m = true ∧ n.kind = m.kind

theorem Remade.of_operand {n e o : Expr} (ho : o ∈ e.operands) (h : Remade n o) : Remade n e := by
  obtain ⟨m, hm, hnm⟩ := h
  exact ⟨m, Expr.mem_walk_of_operand ho hm, hnm⟩

section

variable [Hasher] {catalog : Catalog} {heap : List Expr} {s : Supply} {c : Cache}

theorem kind_candidate (e : Expr) (shared : List Expr) (s : Supply) :
    (candidate e shared s).1.kind = e.kind := by
  unfold candidate
  by_cases hid : identicalAll shared e.operands = true
  · rw [if_pos hid]
  · rw [if_neg hid]
    rfl

/-- Interning several expressions puts in nodes of these expressions only, if each of them does so. -/
theorem internList_origin {es : List Expr}
    (ih : ∀ e ∈ es, ∀ {heap c s}, Heap catalog heap s → c.Shared heap → e ∈ heap →
      ∀ n ∈ (intern e c s).2.1.nodes, n ∈ c.nodes ∨ Remade n e)
    (h : Heap catalog heap s) (hc : c.Shared heap) (hes : es ⊆ heap) :
    ∀ n ∈ (internList es c s).2.1.nodes, n ∈ c.nodes ∨ ∃ e ∈ es, Remade n e := by
  induction es generalizing heap c s with
  | nil => exact fun n hn => Or.inl hn
  | cons e es ihes =>
    obtain ⟨he, hes⟩ := List.cons_subset.mp hes
    obtain ⟨heap₁, hsub₁, h₁, hc₁, _⟩ := intern_interned e h hc he
    rw [internList]
    intro n hn
    rcases ihes (fun x hx => ih x (List.mem_cons_of_mem _ hx)) h₁ hc₁ (List.Subset.trans hes hsub₁) n hn
      with hn | ⟨x, hx, hn⟩
    · rcases ih e List.mem_cons_self h hc he n hn with hn | hn
      · exact Or.inl hn
      · exact Or.inr ⟨e, List.mem_cons_self, hn⟩
    · exact Or.inr ⟨x, List.mem_cons_of_mem _ hx, hn⟩

/-- A node of the cache was there before, or is a node of the expression that was interned, perhaps made
again. -/
theorem intern_origin (e : Expr) {heap : List Expr} {c : Cache} {s : Supply} (h : Heap catalog heap s)
    (hc : c.Shared heap) (he : e ∈ heap) :
    ∀ n ∈ (intern e c s).2.1.nodes, n ∈ c.nodes ∨ Remade n e := by
  induction e using Expr.induction generalizing heap c s with
  | step e ih =>
    have hos := h.operands_subset e he
    obtain ⟨heap₁, hsub₁, h₁, hc₁, _, hshared, hsame⟩ :=
      internList_interned (fun o _ => intern_interned o) h hc hos
    have horigin := internList_origin ih h hc hos
    rw [intern_eq]
    generalize internList e.operands c s = shared at *
    obtain ⟨shared, c₁, s₁⟩ := shared
    obtain ⟨_, _, hcsame⟩ :=
      candidate_spec h₁ (hsub₁ he) (List.Subset.trans hshared hc₁.nodes_subset) hsame
    intro n hn
    rcases mem_share hn with hn | rfl
    · rcases horigin n hn with hn | ⟨o, ho, hn⟩
      · exact Or.inl hn
      · exact Or.inr (hn.of_operand ho)
    · exact Or.inr ⟨e, Expr.mem_walk_self e, hcsame, kind_candidate e shared s₁⟩

/-- What interning gives back is in the cache, and equal to the expression all the way down. -/
theorem intern_alike {e : Expr} (h : Heap catalog heap s) (hc : c.Shared heap) (he : e ∈ heap) :
    ∃ larger, heap ⊆ larger ∧ Heap catalog larger (intern e c s).2.2 ∧ (intern e c s).2.1.Shared larger
      ∧ c.nodes ⊆ (intern e c s).2.1.nodes ∧ (intern e c s).1 ∈ (intern e c s).2.1.nodes
      ∧ (intern e c s).1.Alike e := by
  obtain ⟨larger, hsub, hlarger, hc', hle, hrs, hsame⟩ := intern_interned e h hc he
  have hr := hrs List.mem_cons_self
  have hre := (hlarger.same_iff_alike (hc'.nodes_subset hr) (hsub he)).mp (List.forall₂_cons.mp hsame).1
  exact ⟨larger, hsub, hlarger, hc', hle, hr, hre⟩

/-! ## Interning what is there -/

/-- Interning several expressions gives back the cached nodes that are equal, if each of them does so. -/
theorem internList_eq_of_mem {es ns : List Expr}
    (ih : ∀ e ∈ es, ∀ {heap c s} {n : Expr}, Heap catalog heap s → c.Shared heap → e ∈ heap → n ∈ c.nodes →
      n.same e = true → (intern e c s).1 = n ∧ (intern e c s).2.1 = c)
    (h : Heap catalog heap s) (hc : c.Shared heap) (hes : es ⊆ heap) (hns : ns ⊆ c.nodes)
    (hsame : Expr.AllSame ns es) : (internList es c s).1 = ns ∧ (internList es c s).2.1 = c := by
  induction hsame generalizing heap s with
  | nil => exact ⟨rfl, rfl⟩
  | @cons n e ns es hne _ ihes =>
    obtain ⟨he, hes⟩ := List.cons_subset.mp hes
    obtain ⟨hn, hns⟩ := List.cons_subset.mp hns
    obtain ⟨hr, hcache⟩ := ih e List.mem_cons_self h hc he hn hne
    obtain ⟨heap₁, hsub₁, h₁, _⟩ := intern_interned e h hc he
    obtain ⟨hrs, hcache'⟩ := ihes (fun x hx => ih x (List.mem_cons_of_mem _ hx)) h₁ (hc.mono hsub₁)
      (List.Subset.trans hes hsub₁) hns
    rw [internList]
    dsimp only
    rw [hcache, hr]
    exact ⟨congrArg (n :: ·) hrs, hcache'⟩

/-- Interning an expression that a cached node is equal to gives back that node and leaves the cache as it is.
The induction is on the operands: those of the cached node are cached, and equal to those of the expression. -/
theorem intern_eq_of_mem (e : Expr) {heap : List Expr} {c : Cache} {s : Supply} {n : Expr}
    (h : Heap catalog heap s) (hc : c.Shared heap) (he : e ∈ heap) (hn : n ∈ c.nodes)
    (hne : n.same e = true) : (intern e c s).1 = n ∧ (intern e c s).2.1 = c := by
  induction e using Expr.induction generalizing heap c s n with
  | step e ih =>
    have hos := h.operands_subset e he
    have hsame := h.allSame_operands (hc.nodes_subset hn) he hne
    obtain ⟨hshared, hcache⟩ := internList_eq_of_mem ih h hc hos (hc.operands_subset n hn) hsame
    obtain ⟨heap₁, hsub₁, h₁, _⟩ := internList_interned (fun o _ => intern_interned o) h hc hos
    rw [intern_eq]
    generalize internList e.operands c s = shared at *
    obtain ⟨shared, c₁, s₁⟩ := shared
    obtain rfl : shared = n.operands := hshared
    obtain rfl : c₁ = c := hcache
    have hc₁ := hc.mono hsub₁
    obtain ⟨⟨heap₂, hsub₂, h₂, hcand⟩, _, hcsame⟩ := candidate_spec h₁ (hsub₁ he)
      (List.Subset.trans (hc.operands_subset n hn) hc₁.nodes_subset) hsame
    have hc₂ := hc₁.mono hsub₂
    have hcand := hcand List.mem_cons_self
    have hncand := h₂.same_trans (hc₂.nodes_subset hn) (hsub₂ (hsub₁ he)) hcand hne (Expr.same_symm hcsame)
    dsimp only
    rw [hc₂.share_eq h₂ hcand hn hncand]
    exact ⟨rfl, rfl⟩

end

/-! ## Interning what is new -/

/-- The cache keeps nodes as they are: it has none that is equal to one of them but is another. -/
def Keeps (c : Cache) (nodes : List Expr) : Prop :=
  ∀ n ∈ nodes, ∀ m ∈ c.nodes, m.same n = true → m = n

section

variable {nodes : List Expr} {c : Cache}

/-- A node that is kept is what sharing it gives back, and the others are kept as well. -/
theorem Keeps.share (hdistinct : ∀ a ∈ nodes, ∀ b ∈ nodes, a.same b = true → a = b)
    (hc : c.Keeps nodes) {e : Expr} (he : e ∈ nodes) :
    (c.share e).1 = e ∧ (c.share e).2.Keeps nodes := by
  constructor
  · unfold Cache.share
    cases hf : c.find? e with
    | none => rfl
    | some found =>
      obtain ⟨hmem, hsame⟩ := find?_eq_some hf
      exact hc e he found hmem hsame
  · intro n hn m hm hmn
    rcases mem_share hm with hm | rfl
    · exact hc n hn m hm hmn
    · exact hdistinct m he n hn hmn

variable [Hasher]

/-- Interning several expressions whose nodes are kept gives them back, if each of them is given back. -/
theorem internList_keeps {es : List Expr} {s : Supply}
    (ih : ∀ e ∈ es, ∀ {c : Cache} {s : Supply}, c.Keeps nodes → e.walk ⊆ nodes →
      ∃ c', intern e c s = (e, c', s) ∧ c'.Keeps nodes)
    (hc : c.Keeps nodes) (hes : ∀ e ∈ es, e.walk ⊆ nodes) :
    ∃ c', internList es c s = (es, c', s) ∧ c'.Keeps nodes := by
  induction es generalizing c with
  | nil => exact ⟨c, rfl, hc⟩
  | cons e es ihes =>
    obtain ⟨c₁, he, hc₁⟩ := ih e List.mem_cons_self (s := s) hc (hes e List.mem_cons_self)
    obtain ⟨c₂, hrest, hc₂⟩ := ihes (fun x hx => ih x (List.mem_cons_of_mem _ hx)) hc₁
      (fun x hx => hes x (List.mem_cons_of_mem _ hx))
    refine ⟨c₂, ?_, hc₂⟩
    rw [internList, he]
    dsimp only
    rw [hrest]

/-- Interning an expression whose nodes are kept gives back the expression itself, and makes no node. Among
operands that were kept, none is rebuilt. -/
theorem intern_keeps (hdistinct : ∀ a ∈ nodes, ∀ b ∈ nodes, a.same b = true → a = b) (e : Expr)
    {c : Cache} {s : Supply} (hc : c.Keeps nodes) (he : e.walk ⊆ nodes) :
    ∃ c', intern e c s = (e, c', s) ∧ c'.Keeps nodes := by
  induction e using Expr.induction generalizing c s with
  | step e ih =>
    have hos : ∀ o ∈ e.operands, o.walk ⊆ nodes :=
      fun o ho n hn => he (Expr.mem_walk_of_operand ho hn)
    obtain ⟨c₁, hlist, hc₁⟩ := internList_keeps ih (s := s) hc hos
    have hcand : candidate e e.operands s = (e, s) := by
      unfold candidate identicalAll
      rw [if_pos (isEqv_refl (fun _ => Expr.identical_iff.mpr rfl) _)]
    obtain ⟨hshare, hc₂⟩ := hc₁.share hdistinct (he (Expr.mem_walk_self e))
    refine ⟨(c₁.share e).2, ?_, hc₂⟩
    rw [intern_eq, hlist]
    dsimp only
    rw [hcand]
    dsimp only
    rw [hshare]

end

/-! ## Counting -/

/-- The members of a list without repetition are as many as its length says. -/
theorem encard_mem_of_nodup {α : Type} {as : List α} (h : as.Nodup) :
    { a | a ∈ as }.encard = as.length := by
  classical
  rw [← List.toFinset_card_of_nodup h, ← Set.encard_coe_eq_coe_finsetCard, List.coe_toFinset]

/-- A cache has one node for each content that its nodes have. -/
theorem Shared.size_eq [Hasher] {catalog : Catalog} {heap : List Expr} {s : Supply} {c : Cache}
    (hc : c.Shared heap) (h : Heap catalog heap s) :
    (c.size : ℕ∞) = { q | ∃ n ∈ c.nodes, n.content = q }.encard := by
  have hnodup : c.nodes.Nodup := by
    refine hc.distinct.imp fun {a b} hab heq => ?_
    rw [heq] at hab
    exact hab (Expr.same_refl b)
  have hinj : Set.InjOn Expr.content { n | n ∈ c.nodes } := by
    intro a ha b hb hab
    exact hc.eq_of_alike h ha hb (Expr.content_eq_iff.mp hab)
  calc (c.size : ℕ∞) = { n | n ∈ c.nodes }.encard := (encard_mem_of_nodup hnodup).symm
    _ = (Expr.content '' { n | n ∈ c.nodes }).encard := hinj.encard_image.symm
    _ = { q | ∃ n ∈ c.nodes, n.content = q }.encard := rfl

end Columnar.Cache
