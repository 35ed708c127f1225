import Groth16.Proofs.Circuit.Emission
import Groth16.Proofs.Circuit.Meaning

/-!
# Scopes

Recipes are replayed in the order in which they were recorded, so each of them may only read wires
that are there already; and a recipe without a value has a row reported in its place, so there must
be one.  This file shows that the operations see to both.

* `Scoped`: recipes and rows mention only wires that are there already, and after every recipe a row
  follows.
* `Operation.scoped_items`: what an operation records is scoped, if its operands are.
* `Operation.result_within`: the wires that an operation gives back are the one-wire, those of its
  operands and its own, and not among the latter is the inverse in a test for zero
  (`Operation.Auxiliary`).
-/

set_option autoImplicit false

namespace Groth16

variable {K : PrimeField}

open LinearCombination (ofWire)

/-! ## Scoped items -/

/-- Recipes and rows mention only wires that are there already, and every recipe is followed by a
row, where the next wire is `n`. -/
def Scoped : Nat → List (Item K) → Prop
  | _, [] => True
  | n, .wire recipe :: items =>
    (∀ a ∈ recipe.operands, a.Below n) ∧ rowsOf items ≠ [] ∧ Scoped (n + 1) items
  | n, .row c :: items => c.Below n ∧ Scoped n items

theorem Scoped.append {n : Nat} {xs ys : List (Item K)} (hx : Scoped n xs)
    (hy : Scoped (n + wireCount xs) ys) : Scoped n (xs ++ ys) := by
  induction xs generalizing n with
  | nil => exact hy
  | cons x xs ih =>
    cases x with
    | wire recipe =>
      have hnext : n + (wireCount xs + 1) = n + 1 + wireCount xs := by omega
      rw [wireCount, hnext] at hy
      refine ⟨hx.1, ?_, ih hx.2.2 hy⟩
      show rowsOf (xs ++ ys) ≠ []
      rw [rowsOf_append]
      exact List.append_ne_nil_of_left_ne_nil hx.2.1 _
    | row c => exact ⟨hx.1, ih hx.2 hy⟩

theorem Scoped.below {n : Nat} {items : List (Item K)} (h : Scoped n items) :
    ∀ c ∈ rowsOf items, c.Below (n + wireCount items) := by
  induction items generalizing n with
  | nil => simp [rowsOf]
  | cons x items ih =>
    cases x with
    | wire recipe =>
      intro c hc
      refine (ih h.2.2 c hc).mono ?_
      rw [wireCount]
      omega
    | row d =>
      intro c hc
      rcases List.mem_cons.1 hc with rfl | hc
      · exact h.1.mono (Nat.le_add_right _ _)
      · exact ih h.2 c hc

/-! ## Combinations and wires -/

namespace LinearCombination

theorem below_zero (n : Nat) : (0 : LinearCombination K).Below n := within_zero

theorem below_ofWire {w : Wire} {n : Nat} (h : w.index < n) :
    (ofWire w : LinearCombination K).Below n := within_ofWire (P := (·.index < n)) h

theorem below_constant {n : Nat} (pos : 0 < n) (k : Fp K) : (constant k).Below n :=
  within_constant (P := (·.index < n)) pos k

theorem Below.sub {a b : LinearCombination K} {n : Nat} (ha : a.Below n) (hb : b.Below n) :
    (a - b).Below n := Within.sub ha hb

end LinearCombination

theorem mem_internalWires {session n count : Nat} {w : Wire} :
    w ∈ internalWires session n count ↔ ∃ i, n ≤ i ∧ i < n + count ∧ w = .internal session i := by
  induction count generalizing n with
  | zero =>
    simp only [internalWires, List.not_mem_nil, false_iff]
    rintro ⟨i, h₁, h₂, -⟩
    omega
  | succ count ih =>
    rw [internalWires, List.mem_cons, ih]
    constructor
    · rintro (rfl | ⟨i, h₁, h₂, rfl⟩)
      · exact ⟨n, le_rfl, by omega, rfl⟩
      · exact ⟨i, by omega, by omega, rfl⟩
    · rintro ⟨i, h₁, h₂, rfl⟩
      by_cases hi : i = n
      · exact .inl (by rw [hi])
      · exact .inr ⟨i, by omega, by omega, rfl⟩

theorem map_wire_weighted (weight : Fp K) (ws : List Wire) :
    (Build.weighted weight ws).map (·.wire) = ws := by
  induction ws generalizing weight with
  | nil => rfl
  | cons w ws ih => rw [Build.weighted, List.map_cons, ih]

/-! ## Operations -/

theorem scoped_productItems {session n : Nat} {acc : LinearCombination K}
    {fs : List (LinearCombination K)} (hacc : acc.Below n) (hfs : ∀ f ∈ fs, f.Below n) :
    Scoped n (productItems session n acc fs) := by
  induction fs generalizing n acc with
  | nil => trivial
  | cons f fs ih =>
    rw [List.forall_mem_cons] at hfs
    have hv : (ofWire (.internal session n) : LinearCombination K).Below (n + 1) :=
      LinearCombination.below_ofWire (Nat.lt_succ_self n)
    refine ⟨?_, by simp [rowsOf], ⟨hacc.mono (Nat.le_succ n), hfs.1.mono (Nat.le_succ n), hv⟩, ?_⟩
    · simpa [Recipe.operands] using ⟨hacc, hfs.1⟩
    · exact ih hv fun g hg => (hfs.2 g hg).mono (Nat.le_succ n)

theorem scoped_booleanItems {n : Nat} {tag : Tag} {a : LinearCombination K} (pos : 0 < n)
    (h : a.Below n) : Scoped n (booleanItems tag a) := by
  rw [booleanItems]
  split
  · trivial
  · exact ⟨⟨h, (LinearCombination.below_constant pos 1).sub h, LinearCombination.below_zero n⟩,
      trivial⟩

theorem scoped_bitItems {session n i count : Nat} {a : LinearCombination K} (h : a.Below n) :
    Scoped n (bitItems session a n i count) := by
  induction count generalizing n i with
  | zero => trivial
  | succ count ih =>
    have hb : (ofWire (.internal session n) : LinearCombination K).Below (n + 1) :=
      LinearCombination.below_ofWire (Nat.lt_succ_self n)
    refine ⟨by simpa [Recipe.operands] using h, by simp [rowsOf], ⟨hb, ?_,
      LinearCombination.below_zero _⟩, ih (h.mono (Nat.le_succ n))⟩
    exact (LinearCombination.below_constant (Nat.succ_pos n) 1).sub hb

theorem scoped_flatMap_booleanItems {n : Nat} {tag : Tag} {as : List (LinearCombination K)}
    (pos : 0 < n) (h : ∀ a ∈ as, a.Below n) : Scoped n (as.flatMap (booleanItems tag)) := by
  induction as with
  | nil => trivial
  | cons a as ih =>
    rw [List.forall_mem_cons] at h
    rw [List.flatMap_cons]
    refine (scoped_booleanItems pos h.1).append ?_
    rw [wireCount_booleanItems]
    exact ih h.2

namespace Operation

/-- What an operation records mentions only wires that are there already, if the operation does. -/
theorem scoped_items {op : Operation K} {n : Nat} (pos : 0 < n)
    (operands : ∀ a ∈ op.operands, a.Below n) (session : Nat) :
    Scoped n (op.items session n) := by
  cases op with
  | mul a b =>
    simp only [Operation.operands, List.forall_mem_cons] at operands
    exact scoped_productItems operands.1 (by simpa using operands.2.1)
  | mulMany as =>
    cases as with
    | nil => trivial
    | cons a as =>
      rw [Operation.operands, List.forall_mem_cons] at operands
      exact scoped_productItems operands.1 operands.2
  | assertEqual a b =>
    simp only [Operation.operands, List.forall_mem_cons] at operands
    rw [items]
    split
    · trivial
    · exact ⟨⟨operands.1, LinearCombination.below_ofWire pos, operands.2.1⟩, trivial⟩
  | inverse a =>
    simp only [Operation.operands, List.forall_mem_cons] at operands
    rw [items]
    split
    · trivial
    · refine ⟨by simpa [Recipe.operands] using operands.1, by simp [rowsOf],
        ⟨operands.1.mono (Nat.le_succ n), ?_, ?_⟩, trivial⟩
      · exact LinearCombination.below_ofWire (Nat.lt_succ_self n)
      · exact LinearCombination.below_ofWire (Nat.succ_pos n)
  | div a b =>
    simp only [Operation.operands, List.forall_mem_cons] at operands
    rw [items]
    split
    · trivial
    · refine ⟨by simpa [Recipe.operands] using ⟨operands.1, operands.2.1⟩, by simp [rowsOf],
        ⟨operands.2.1.mono (Nat.le_succ n), ?_, operands.1.mono (Nat.le_succ n)⟩, trivial⟩
      exact LinearCombination.below_ofWire (Nat.lt_succ_self n)
  | assertBoolean a =>
    simp only [Operation.operands, List.forall_mem_cons] at operands
    exact scoped_booleanItems pos operands.1
  | select bit x y =>
    simp only [Operation.operands, List.forall_mem_cons] at operands
    obtain ⟨hbit, hx, hy, -⟩ := operands
    refine (scoped_booleanItems pos hbit).append ?_
    rw [wireCount_booleanItems, Nat.add_zero]
    split
    · trivial
    · refine ⟨by simpa [Recipe.operands] using ⟨hbit, hx.sub hy⟩, by simp [rowsOf],
        ⟨hbit.mono (Nat.le_succ n), (hx.sub hy).mono (Nat.le_succ n), ?_⟩, trivial⟩
      exact LinearCombination.below_ofWire (Nat.lt_succ_self n)
  | isZero a =>
    simp only [Operation.operands, List.forall_mem_cons] at operands
    have ha : a.Below (n + 2) := operands.1.mono (Nat.le_add_right n 2)
    have hout : (ofWire (.internal session (n + 1)) : LinearCombination K).Below (n + 2) :=
      LinearCombination.below_ofWire (Nat.lt_succ_self (n + 1))
    rw [items]
    split
    · trivial
    · refine ⟨by simpa [Recipe.operands] using operands.1, by simp [rowsOf],
        by simpa [Recipe.operands] using operands.1.mono (Nat.le_succ n), by simp [rowsOf],
        ⟨ha, ?_, ?_⟩, ⟨ha, hout, LinearCombination.below_zero _⟩, trivial⟩
      · exact LinearCombination.below_ofWire (by simp [Wire.internal])
      · exact (LinearCombination.below_constant (Nat.succ_pos _) 1).sub hout
  | toBinary a count =>
    simp only [Operation.operands, List.forall_mem_cons] at operands
    refine (scoped_bitItems operands.1).append ?_
    rw [wireCount_bitItems]
    refine ⟨⟨fun w hw => ?_, LinearCombination.below_ofWire (by simp [Wire.one, pos]),
      operands.1.mono (Nat.le_add_right _ _)⟩, trivial⟩
    have hmem := LinearCombination.mem_wires_ofTerms hw
    rw [map_wire_weighted] at hmem
    obtain ⟨i, -, hi, rfl⟩ := mem_internalWires.1 hmem
    exact hi
  | fromBinary as => exact scoped_flatMap_booleanItems pos operands
  | _ => trivial

/-! ## Wires of results -/

section
variable {P : Wire → Prop} {acc : LinearCombination K} {as : List (LinearCombination K)}

theorem within_foldl_add (hacc : acc.Within P) (has : ∀ a ∈ as, a.Within P) :
    (as.foldl (· + ·) acc).Within P := by
  induction as generalizing acc with
  | nil => exact hacc
  | cons a as ih =>
    rw [List.forall_mem_cons] at has
    exact ih (hacc.add has.1) has.2

theorem within_weightedSum (hacc : acc.Within P) (has : ∀ a ∈ as, a.Within P) (weight : Fp K) :
    (weightedSum acc weight as).Within P := by
  induction as generalizing acc weight with
  | nil => exact hacc
  | cons a as ih =>
    rw [List.forall_mem_cons] at has
    exact ih (hacc.add (has.1.scale weight)) has.2 _

/-- A chain of products ends with its last wire. -/
theorem within_productResult {session n : Nat} (hacc : acc.Within P)
    (own : ∀ i, n ≤ i → i < n + as.length → P (.internal session i)) :
    (productResult session n acc as).Within P := by
  induction as generalizing n acc with
  | nil => exact hacc
  | cons a as ih =>
    rw [List.length_cons] at own
    exact ih (LinearCombination.within_ofWire (own n le_rfl (by omega))) fun i lower upper =>
      own i (by omega) (by omega)

end

/-- Wire `i` holds the inverse in a test for zero. -/
def Auxiliary (n i : Nat) : Operation K → Prop
  | isZero a => a.isConstant = false ∧ i = n
  | _ => False

/-- **The wires that an operation gives back** are as `P` says, if the one-wire is, those of its
operands are, and its own are but for the inverse in a test for zero. -/
theorem result_within {P : Wire → Prop} {op : Operation K} {session n : Nat} (one : P .one)
    (operands : ∀ a ∈ op.operands, a.Within P)
    (own : ∀ i, n ≤ i → i < n + wireCount (op.items session n) → ¬ op.Auxiliary n i →
      P (.internal session i)) :
    ∀ w ∈ (op.result session n).mentioned, P w := by
  cases op with
  | constant k => exact LinearCombination.within_constant one k
  | add a b =>
    simp only [Operation.operands, List.forall_mem_cons] at operands
    exact operands.1.add operands.2.1
  | sub a b =>
    simp only [Operation.operands, List.forall_mem_cons] at operands
    exact operands.1.sub operands.2.1
  | neg a => exact (operands a (List.mem_singleton_self a)).neg
  | scale a k => exact (operands a (List.mem_singleton_self a)).scale k
  | sum as => exact within_foldl_add LinearCombination.within_zero operands
  | mul a b =>
    refine List.forall_mem_singleton.2 (own n le_rfl ?_ id)
    rw [items, wireCount_productItems]
    exact Nat.lt_succ_self n
  | mulMany as =>
    cases as with
    | nil => exact List.forall_mem_nil _
    | cons a as =>
      refine within_productResult (operands a List.mem_cons_self) fun i lower upper => ?_
      rw [items, wireCount_productItems] at own
      exact own i lower upper id
  | assertEqual a b | assertBoolean a => exact List.forall_mem_nil _
  | inverse a =>
    simp only [result, Result.mentioned]
    cases hc : a.asConstant? with
    | some k => exact LinearCombination.within_constant one _
    | none =>
      refine LinearCombination.within_ofWire (own n le_rfl ?_ id)
      simp [items, LinearCombination.isConstant_of_eq_none hc, wireCount]
  | div a b =>
    simp only [result, Result.mentioned]
    cases hc : b.asConstant? with
    | some k => exact (operands a List.mem_cons_self).scale _
    | none =>
      refine LinearCombination.within_ofWire (own n le_rfl ?_ id)
      simp [items, LinearCombination.isConstant_of_eq_none hc, wireCount]
  | select bit x y =>
    simp only [Operation.operands, List.forall_mem_cons] at operands
    obtain ⟨-, hx, hy, -⟩ := operands
    simp only [result, Result.mentioned]
    cases hc : bit.asConstant? with
    | some k =>
      dsimp only
      split
      · exact hx
      · exact hy
    | none =>
      by_cases same : (x - y).isEmpty
      · rw [if_pos same]
        exact hy
      · rw [if_neg same]
        refine (LinearCombination.within_ofWire (own n le_rfl ?_ id)).add hy
        simp [items, LinearCombination.isConstant_of_eq_none hc, same, wireCount]
  | isZero a =>
    simp only [result, Result.mentioned]
    cases hc : a.asConstant? with
    | some k => exact LinearCombination.within_constant one _
    | none =>
      refine LinearCombination.within_ofWire (own (n + 1) (Nat.le_succ n) ?_ ?_)
      · simp [items, LinearCombination.isConstant_of_eq_none hc, wireCount]
      · rintro ⟨-, hn⟩
        omega
  | toBinary a count =>
    intro w hw
    obtain ⟨i, lower, upper, rfl⟩ := mem_internalWires.1 hw
    refine own i lower ?_ id
    rw [items, wireCount_append, wireCount_bitItems]
    exact upper
  | fromBinary as => exact within_weightedSum LinearCombination.within_zero operands 1

end Operation

end Groth16
