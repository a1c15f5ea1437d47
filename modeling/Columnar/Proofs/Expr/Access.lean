import Columnar.Proofs.Expr.Equality

/-!
# `Proofs.Expr.Access` — nothing is taken from a place that is not there

The parts of a node are taken from its list of operands by their places, and its text by the places of its
operands. Here every such access can fail: an item that is not there, a slice that goes beyond the end, a
difference below zero and half of an odd number are nothing. How many operands a node has is fixed by its kind,
so none of them fails, and what they give is what the functions give that take lists of any length.

## Contents
- `difference?`, `half?`, `slice?`: arithmetic and slices that may fail.
- `Kind.Takes`, `Kind.Typed.takes`: how many operands a node has.
- `Branches.layout?`, `Branches.ofOperands?`, `Expr.branches?`, `Expr.candidates?`: parts of a node.
- `Kind.write?`, `Expr.text?`: the text of a node and of a whole expression.
-/

namespace Columnar

/-! ## Arithmetic and slices -/

/-- The difference of two numbers, unless it is below zero. -/
def difference? (m n : Nat) : Option Nat := if n ≤ m then some (m - n) else none

/-- Half of a number, unless it is odd. -/
def half? (n : Nat) : Option Nat := if n % 2 = 0 then some (n / 2) else none

/-- The items from one place to another, unless the places are out of order or beyond the end. -/
def slice? {α : Type} (items : List α) (start stop : Nat) : Option (List α) :=
  if start ≤ stop ∧ stop ≤ items.length then some ((items.drop start).take (stop - start)) else none

theorem difference?_add (m n : Nat) : difference? (m + n) n = some m := by
  unfold difference?
  rw [if_pos (Nat.le_add_left n m), Nat.add_sub_cancel]

theorem half?_mul (n : Nat) : half? (2 * n) = some n := by
  unfold half?
  rw [if_pos (Nat.mul_mod_right 2 n), Nat.mul_div_cancel_left n (by decide)]

section

variable {α : Type} {items : List α}

theorem slice?_add {start n : Nat} (h : start + n ≤ items.length) :
    slice? items start (start + n) = some ((items.drop start).take n) := by
  unfold slice?
  rw [if_pos ⟨Nat.le_add_right start n, h⟩, Nat.add_sub_cancel_left]

/-- All items from a place on. -/
theorem slice?_length {start : Nat} (h : start ≤ items.length) :
    slice? items start items.length = some (items.drop start) := by
  unfold slice?
  rw [if_pos ⟨h, Nat.le_refl _⟩, List.take_of_length_le (by rw [List.length_drop])]

end

/-! ## The number of operands -/

/-- How many operands a node of the kind has. -/
def Kind.Takes (k : Kind) (n : Nat) : Prop :=
  match k with
  | column .. | literal _ => n = 0
  | unary _ | reduce _ | cut _ | cast => n = 1
  | binary _ | fillMissing => n = 2
  | between _ | conditional => n = 3
  | membership _ => 2 ≤ n
  | switch hasCase hasDefault => ∃ pairs, 1 ≤ pairs ∧ n = hasCase.toNat + 2 * pairs + hasDefault.toNat
  | map _ => 1 ≤ n

/-- Each rule is about a number of operands that the kind has. -/
theorem Kind.Typed.takes {k : Kind} {ops : List Signature} {r : Signature} (h : k.Typed ops r) :
    k.Takes ops.length := by
  cases h with
  | column | literal | unary _ | reduce _ | cut _ | cast _ _ | binary _ | fillMissing _ _ | between _
  | conditional _ _ => rfl
  | membership hcs _ => exact Nat.succ_le_succ (List.length_pos_of_ne_nil hcs)
  | @switch n _ b hn hconditions hthens _ _ =>
    refine ⟨n, hn, ?_⟩
    unfold Branches.toOperands
    simp only [List.length_append, hconditions, hthens]
    cases b.case <;> cases b.default <;> simp <;> omega
  | mapField => exact Nat.le_refl 1
  | mapRow has => exact List.length_pos_of_ne_nil has

/-- A node of a tree that obeys the rules has as many operands as its kind says. -/
theorem Expr.WellTyped.takes {e : Expr} (h : e.WellTyped) : e.kind.Takes e.operands.length := by
  have htakes := Kind.Typed.takes h
  rwa [List.length_map] at htakes

/-! ## Parts -/

namespace Branches

variable {α : Type} {hasCase hasDefault : Bool} {operands : List α}

/-- Where the conditions of a switch start among so many operands, and how many there are. -/
def layout? (hasCase hasDefault : Bool) (length : Nat) : Option (Nat × Nat) := do
  let rest ← difference? (← difference? length hasCase.toNat) hasDefault.toNat
  some (hasCase.toNat, ← half? rest)

/-- The value of a switch: its first operand. -/
def case? (hasCase : Bool) (operands : List α) : Option (Option α) :=
  if hasCase then operands[0]?.map some else some none

def conditions? (hasCase hasDefault : Bool) (operands : List α) : Option (List α) := do
  let (offset, n) ← layout? hasCase hasDefault operands.length
  slice? operands offset (offset + n)

def thens? (hasCase hasDefault : Bool) (operands : List α) : Option (List α) := do
  let (offset, n) ← layout? hasCase hasDefault operands.length
  slice? operands (offset + n) (offset + 2 * n)

/-- The default of a switch: its last operand. -/
def default? (hasCase hasDefault : Bool) (operands : List α) : Option (Option α) := do
  let _ ← layout? hasCase hasDefault operands.length
  if hasDefault then operands.getLast?.map some else some none

/-- All parts of a switch. -/
def ofOperands? (hasCase hasDefault : Bool) (operands : List α) : Option (Branches α) := do
  some ⟨← case? hasCase operands, ← conditions? hasCase hasDefault operands, ← thens? hasCase hasDefault operands,
    ← default? hasCase hasDefault operands⟩

section

variable {n : Nat} (h : operands.length = hasCase.toNat + 2 * n + hasDefault.toNat)

include h

theorem layout?_eq : layout? hasCase hasDefault operands.length = some (hasCase.toNat, n) := by
  have hlength : operands.length = 2 * n + hasDefault.toNat + hasCase.toNat := by omega
  unfold layout?
  rw [hlength, difference?_add]
  simp only [Option.bind_eq_bind, Option.bind_some, difference?_add, half?_mul]

theorem case?_eq : case? hasCase operands = some (if hasCase then operands.head? else none) := by
  unfold case?
  cases hasCase with
  | false => rfl
  | true =>
    have hpos : 0 < operands.length := by
      rw [h, Bool.toNat_true]
      omega
    rw [if_pos rfl, if_pos rfl, List.head?_eq_getElem?, List.getElem?_eq_getElem hpos]
    rfl

theorem conditions?_eq :
    conditions? hasCase hasDefault operands = some ((operands.drop hasCase.toNat).take n) := by
  unfold conditions?
  rw [layout?_eq h]
  exact slice?_add (by omega)

theorem thens?_eq :
    thens? hasCase hasDefault operands = some ((operands.drop (hasCase.toNat + n)).take n) := by
  unfold thens?
  rw [layout?_eq h]
  show slice? operands (hasCase.toNat + n) (hasCase.toNat + 2 * n) = _
  rw [Nat.two_mul, ← Nat.add_assoc]
  exact slice?_add (by omega)

theorem default?_eq :
    default? hasCase hasDefault operands = some (if hasDefault then operands.getLast? else none) := by
  unfold default?
  rw [layout?_eq h]
  cases hasDefault with
  | false => rfl
  | true =>
    have hne : operands ≠ [] := by
      rintro rfl
      rw [List.length_nil, Bool.toNat_true] at h
      omega
    simp only [Option.bind_eq_bind, Option.bind_some, if_true]
    rw [List.getLast?_eq_some_getLast hne]
    rfl

/-- A switch of so many pairs has all its parts. -/
theorem ofOperands?_eq :
    ofOperands? hasCase hasDefault operands = some (ofOperands hasCase hasDefault operands) := by
  have hn : (operands.length - hasCase.toNat - hasDefault.toNat) / 2 = n := by omega
  unfold ofOperands? ofOperands
  rw [case?_eq h, conditions?_eq h, thens?_eq h, default?_eq h]
  simp only [hn, Option.bind_eq_bind, Option.bind_some]

end

end Branches

namespace Expr

variable {e : Expr}

/-- The candidates of a membership test: all operands but the first. -/
def candidates? (e : Expr) : Option (List Expr) :=
  match e.kind with
  | .membership _ => slice? e.operands 1 e.operands.length
  | _ => some []

/-- The parts of a switch. -/
def branches? (e : Expr) : Option (Branches Expr) :=
  match e.kind with
  | .switch hasCase hasDefault => Branches.ofOperands? hasCase hasDefault e.operands
  | _ => some ⟨none, [], [], none⟩

theorem candidates?_eq (h : e.kind.Takes e.operands.length) : e.candidates? = some e.candidates := by
  unfold candidates? candidates
  cases hkind : e.kind with
  | membership negated =>
    rw [hkind] at h
    exact slice?_length (Nat.le_of_succ_le h)
  | _ => rfl

theorem branches?_eq (h : e.kind.Takes e.operands.length) : e.branches? = some e.branches := by
  unfold branches? branches
  cases hkind : e.kind with
  | switch hasCase hasDefault =>
    rw [hkind] at h
    obtain ⟨n, _, hlength⟩ := h
    exact Branches.ofOperands?_eq hlength
  | _ => rfl

end Expr

/-! ## Text -/

namespace Kind

/-- The text of a node, written from the texts of the operands at fixed places. -/
def write? (kind : Kind) (type : ElementType) (operands : List String) : Option String :=
  match kind with
  | column name _ => some name
  | literal v => some v.text
  | unary .not => do some ("NOT " ++ (← operands[0]?))
  | unary .negate => do some ("-" ++ (← operands[0]?))
  | binary op => do some ("(" ++ (← operands[0]?) ++ " " ++ op.symbol ++ " " ++ (← operands[1]?) ++ ")")
  | membership negated => do
    let x ← operands[0]?
    let xs ← slice? operands 1 operands.length
    some ((membership negated).name ++ "(" ++ x ++ ", [" ++ commas xs ++ "])")
  | switch hasCase hasDefault => do some (switchText (← Branches.ofOperands? hasCase hasDefault operands))
  | cut bins => do some ("cut(" ++ (← operands[0]?) ++ ", [" ++ commas (bins.edges.map Value.text) ++ "])")
  | cast => do some ("astype(" ++ (← operands[0]?) ++ ", " ++ type.name ++ ")")
  | map m => some (m.function.name ++ "(" ++ commas operands ++ ")")
  | kind => some (kind.name ++ "(" ++ commas operands ++ ")")

/-- A node with as many operands as its kind has can be written. -/
theorem write?_eq {k : Kind} {texts : List String} (h : k.Takes texts.length) (t : ElementType) :
    k.write? t texts = some (k.write t texts) := by
  cases k with
  | column | literal | reduce | fillMissing | between | conditional | map => rfl
  | unary op =>
    obtain ⟨x, rfl⟩ := List.length_eq_one_iff.mp h
    cases op <;> rfl
  | binary op =>
    obtain ⟨x, y, rfl⟩ := List.length_eq_two.mp h
    rfl
  | membership negated =>
    obtain ⟨x, xs, rfl⟩ := List.exists_cons_of_length_pos (Nat.lt_of_succ_le (Nat.le_of_succ_le h))
    have hslice : slice? (x :: xs) 1 (x :: xs).length = some xs := slice?_length (Nat.le_of_succ_le h)
    simp only [write?, hslice]
    rfl
  | switch hasCase hasDefault =>
    obtain ⟨n, _, hlength⟩ := h
    simp only [write?, Branches.ofOperands?_eq hlength]
    rfl
  | cut bins =>
    obtain ⟨x, rfl⟩ := List.length_eq_one_iff.mp h
    rfl
  | cast =>
    obtain ⟨x, rfl⟩ := List.length_eq_one_iff.mp h
    rfl

end Kind

namespace Expr

mutual

/-- An expression written from the texts of its operands. -/
def text? : Expr → Option String
  | node _ _ k t _ n os => do
    let body ← k.write? t (← textList? os)
    some (body ++ (match n with | some n => " AS " ++ n | none => ""))

/-- The texts of several expressions. -/
def textList? : List Expr → Option (List String)
  | [] => some []
  | e :: es => do some ((← e.text?) :: (← textList? es))

end

theorem textList?_eq {es : List Expr} (h : ∀ e ∈ es, e.text? = some e.text) :
    textList? es = some (es.map text) := by
  induction es with
  | nil => rfl
  | cons e es ih =>
    rw [textList?, h e List.mem_cons_self, ih fun e he => h e (List.mem_cons_of_mem _ he)]
    rfl

/-- The induction is on the operands: a node is written once they are. -/
theorem text?_eq {e : Expr} (h : ∀ n ∈ e.walk, n.kind.Takes n.operands.length) : e.text? = some e.text := by
  induction e using Expr.induction with
  | step e ih =>
    have htakes := h e (mem_walk_self e)
    cases e with
    | node i hash k t s name os =>
      have hoperands : textList? os = some (os.map text) :=
        textList?_eq fun o ho => ih o ho fun n hn => h n (mem_walk_of_operand ho hn)
      have hwrite : k.write? t (os.map text) = some (k.write t (os.map text)) :=
        Kind.write?_eq (by rw [List.length_map]; exact htakes) t
      simp only [text?, text, textList_eq_map]
      rw [hoperands]
      show (k.write? t (os.map text)).bind _ = _
      rw [hwrite]
      rfl

end Expr

end Columnar
