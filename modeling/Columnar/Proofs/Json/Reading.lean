import Columnar.Json.Basic
import Columnar.Json.Reader

/-!
# `Proofs.Json.Reading` — what was written is read back

A reader is handed the front of a text and gives back the rest. So every statement here is about a written form
with an arbitrary text behind it: the reader takes exactly that form, and leaves exactly that text.

## Contents
- `mark_cons`: a mark that stands in front.
- `scanString_escaped`, `joinUnits_toNat`, `readString_quoted`: strings, escape by escape and as a whole.
- `readName_quoted`: names.
- `members_memberChars`, `readObject_object`: objects, member by member and as a whole.
-/

namespace Columnar.Json.Reader

/-! ## Marks -/

theorem skipSpace_cons {c : Char} (hc : isSpace c = false) (cs : List Char) :
    skipSpace (c :: cs) = c :: cs := by
  unfold skipSpace
  rw [List.dropWhile_cons_of_neg]
  simp [hc]

theorem mark_cons {c : Char} (hc : isSpace c = false) (cs : List Char) : mark c (c :: cs) = some cs := by
  unfold mark
  rw [skipSpace_cons hc]
  exact if_pos rfl

/-! ## Strings -/

theorem hexValue?_hexDigit : ∀ n < 16, hexValue? (hexDigit n) = some n := by
  decide

/-- A control character is numbered by two zeros and two digits. -/
theorem hex4?_hexDigit {n : Nat} (hn : n < 0x20) :
    hex4? '0' '0' (hexDigit (n / 16)) (hexDigit (n % 16)) = some n := by
  have hzero : hexValue? '0' = some 0 := rfl
  unfold hex4?
  rw [hzero, hexValue?_hexDigit _ (by omega), hexValue?_hexDigit _ (by omega)]
  simp only [Option.bind_eq_bind, Option.bind_some, Option.some.injEq]
  omega

/-- A character is escaped by a letter or by its number, or it stands as it is. -/
theorem escaped_cases (c : Char) :
    (∃ letter, escaped c = ['\\', letter] ∧ letter ≠ 'u' ∧ escape? letter = some c)
      ∨ (escaped c = ['\\', 'u', '0', '0', hexDigit (c.toNat / 16), hexDigit (c.toNat % 16)]
        ∧ c.toNat < 0x20)
      ∨ (escaped c = [c] ∧ c ≠ '"' ∧ c ≠ '\\' ∧ ¬ c.toNat < 0x20) := by
  by_cases hletter : c ∈ ['"', '\\', '\x08', '\x0c', '\n', '\r', '\t']
  · simp only [List.mem_cons, List.not_mem_nil, or_false] at hletter
    rcases hletter with rfl | rfl | rfl | rfl | rfl | rfl | rfl <;>
      exact Or.inl ⟨_, rfl, by decide, rfl⟩
  · simp only [List.mem_cons, List.not_mem_nil, or_false, not_or] at hletter
    obtain ⟨h₁, h₂, h₃, h₄, h₅, h₆, h₇⟩ := hletter
    unfold escaped
    rw [if_neg h₁, if_neg h₂, if_neg h₃, if_neg h₄, if_neg h₅, if_neg h₆, if_neg h₇]
    by_cases hnumber : c.toNat < 0x20
    · rw [if_pos hnumber]
      exact Or.inr (Or.inl ⟨rfl, hnumber⟩)
    · rw [if_neg hnumber]
      exact Or.inr (Or.inr ⟨rfl, h₁, h₂, hnumber⟩)

/-- A character inside quotes is read as its code point, whether it was escaped or not. -/
theorem scanString_escaped (c : Char) (cs : List Char) :
    scanString (escaped c ++ cs) = (scanString cs).map fun r => (c.toNat :: r.1, r.2) := by
  rcases escaped_cases c with ⟨letter, he, hu, hletter⟩ | ⟨he, hnumber⟩ | ⟨he, hquote, hbackslash, hnumber⟩
  · rw [he, List.cons_append, List.cons_append, List.nil_append, scanString.eq_def]
    simp only [hu, hletter]
    cases scanString cs <;> rfl
  · rw [he]
    simp only [List.cons_append, List.nil_append]
    rw [scanString.eq_def]
    simp only [hex4?_hexDigit hnumber]
    cases scanString cs <;> rfl
  · rw [he, List.cons_append, List.nil_append, scanString.eq_def]
    simp only [if_neg hquote, if_neg hbackslash, if_neg hnumber]
    cases scanString cs <;> rfl

theorem scanString_flatMap (cs rest : List Char) :
    scanString (cs.flatMap escaped ++ '"' :: rest) = some (cs.map Char.toNat, rest) := by
  induction cs with
  | nil =>
    rw [List.flatMap_nil, List.nil_append, scanString.eq_def]
    exact if_pos rfl
  | cons c cs ih =>
    rw [List.flatMap_cons, List.append_assoc, scanString_escaped, ih]
    rfl

/-- No character is half of a surrogate pair, so every code point is a character by itself. -/
theorem joinUnits_toNat (cs : List Char) : joinUnits (cs.map Char.toNat) = some cs := by
  induction cs with
  | nil => rfl
  | cons c cs ih =>
    have hvalid : c.toNat < 0xD800 ∨ (0xDFFF < c.toNat ∧ c.toNat < 0x110000) := c.valid
    rw [List.map_cons, joinUnits.eq_def]
    simp only
    rw [if_neg (by omega), if_neg (by omega), ih, Char.ofNat_toNat]
    rfl

theorem quoted_append (s : String) (rest : List Char) :
    quoted s ++ rest = '"' :: (s.toList.flatMap escaped ++ '"' :: rest) := by
  simp [quoted]

/-- A written string is read as the string that it is. -/
theorem readString_quoted (s : String) (rest : List Char) :
    readString (quoted s ++ rest) = some (s, rest) := by
  unfold readString
  rw [quoted_append, mark_cons rfl]
  simp only [Option.bind_eq_bind, Option.bind_some, scanString_flatMap, joinUnits_toNat,
    String.ofList_toList]

/-- A written name is read as what it names. -/
theorem readName_quoted {α : Type} (find? : String → Option α) (key : String) (rest : List Char) :
    readName find? (quoted key ++ rest) = (find? key).map fun a => (a, rest) := by
  have hread := readString_quoted key rest
  unfold readName
  rw [quoted_append] at hread ⊢
  rw [skipSpace_cons rfl]
  -- a string does not start like an object, so it is read as the name itself
  show (readString _ >>= fun r => find? r.1 >>= fun a => some (a, r.2)) = _
  rw [hread, Option.bind_eq_bind, Option.bind_some]
  cases find? key <;> rfl

/-! ## Objects -/

theorem memberChars_singleton (m : String × Json) :
    memberChars [m] = quoted m.1 ++ ':' :: m.2.chars ++ ['}'] := by
  rw [memberChars]

theorem memberChars_cons_cons (m n : String × Json) (ms : List (String × Json)) :
    memberChars (m :: n :: ms) = quoted m.1 ++ ':' :: m.2.chars ++ ',' :: memberChars (n :: ms) := by
  rw [memberChars]
  exact nofun

theorem exists_memberChars_eq (m : String × Json) (ms : List (String × Json)) (rest : List Char) :
    ∃ cs, memberChars (m :: ms) ++ rest = '"' :: cs := by
  cases ms with
  | nil => exact ⟨_, by rw [memberChars_singleton, List.append_assoc, List.append_assoc, quoted_append]⟩
  | cons n ms => exact ⟨_, by rw [memberChars_cons_cons, List.append_assoc, List.append_assoc, quoted_append]⟩

/-- There are at least as many characters as members. -/
theorem length_le_memberChars (ms : List (String × Json)) : ms.length ≤ (memberChars ms).length := by
  induction ms with
  | nil => exact Nat.zero_le _
  | cons m ms ih =>
    cases ms with
    | nil =>
      rw [memberChars_singleton]
      simp only [List.length_append, List.length_cons, List.length_nil]
      omega
    | cons n ms =>
      rw [memberChars_cons_cons]
      simp only [List.length_append, List.length_cons] at ih ⊢
      omega

section

variable {σ α : Type} {step : σ → String → List Char → Option (σ × List Char)} (member : α → String × Json)
  {f : σ → α → Option σ} (entries : List α)

/-- If the member of every entry is read as `f` says, all members from the first to the brace are read as `f`
says of one entry after the other. -/
theorem members_memberChars (hstep : ∀ acc, ∀ a ∈ entries, ∀ rest,
      step acc (member a).1 ((member a).2.chars ++ rest) = (f acc a).map fun acc => (acc, rest))
    (hne : entries ≠ []) {fuel : Nat} (hfuel : entries.length ≤ fuel) (acc : σ) (rest : List Char) :
    members step fuel acc (memberChars (entries.map member) ++ rest)
      = (entries.foldlM f acc).map fun acc => (acc, rest) := by
  induction entries generalizing fuel acc with
  | nil => exact absurd rfl hne
  | cons a entries ih =>
    obtain ⟨fuel, rfl⟩ : ∃ n, fuel = n + 1 := Nat.exists_eq_add_one.mpr (Nat.lt_of_lt_of_le (by simp) hfuel)
    have ha := hstep acc a List.mem_cons_self
    rw [List.foldlM_cons, List.map_cons]
    cases entries with
    | nil =>
      simp only [members, List.map_nil, memberChars_singleton, List.append_assoc, List.cons_append, List.nil_append,
        readString_quoted, Option.bind_eq_bind, Option.bind_some, mark_cons (c := ':') rfl, ha,
        List.foldlM_nil]
      cases f acc a with
      | none => rfl
      | some next => rfl
    | cons b entries =>
      have hrest := fun next => ih (fun acc b hb => hstep acc b (List.mem_cons_of_mem _ hb)) nofun
        (Nat.le_of_succ_le_succ hfuel) next
      rw [List.map_cons] at hrest ⊢
      simp only [members, memberChars_cons_cons, List.append_assoc, List.cons_append,
        readString_quoted, Option.bind_eq_bind, Option.bind_some, mark_cons (c := ':') rfl, ha]
      cases f acc a with
      | none => rfl
      | some next => exact hrest next

/-- A written object is read as `f` says of its entries, one after the other. -/
theorem readObject_object (hstep : ∀ acc, ∀ a ∈ entries, ∀ rest,
      step acc (member a).1 ((member a).2.chars ++ rest) = (f acc a).map fun acc => (acc, rest))
    (start : σ) (rest : List Char) :
    readObject step start ((Json.object (entries.map member)).chars ++ rest)
      = (entries.foldlM f start).map fun acc => (acc, rest) := by
  unfold readObject
  rw [Json.chars, List.cons_append, mark_cons rfl]
  simp only [Option.bind_eq_bind, Option.bind_some]
  cases entries with
  | nil => rfl
  | cons a entries =>
    have hfuel : (a :: entries).length ≤ (memberChars ((a :: entries).map member) ++ rest).length := by
      rw [List.length_append, ← List.length_map (f := member)]
      exact Nat.le_add_right_of_le (length_le_memberChars _)
    have hmembers := members_memberChars member _ hstep nofun hfuel start rest
    -- the first member starts with a quote, not with the closing brace
    obtain ⟨cs, hcs⟩ := exists_memberChars_eq (member a) (entries.map member) rest
    rw [List.map_cons] at hmembers ⊢
    rw [hcs] at hmembers ⊢
    rw [skipSpace_cons rfl]
    exact hmembers

end

end Columnar.Json.Reader
