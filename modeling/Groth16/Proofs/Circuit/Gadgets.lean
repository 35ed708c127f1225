import Groth16.Proofs.Circuit.Meaning

/-!
# Rows and recipes of the gadgets

What a builder records can be read in two ways.

* `RowsHold`: every row holds on an assignment `z` of all wires.  This is all that a verifier knows.
* `ItemsHold`: every row holds, and every wire has the value that its recipe gives.  This is what a
  prover who follows the recipes gets.

This file says what the two come to for each gadget by itself: chains of products, weighted sums,
bits, decompositions, inverses and tests for zero.  `Groth16.Proofs.Circuit.Laws` assembles this for
the operations.
-/

set_option autoImplicit false

namespace Groth16

variable {K : PrimeField} {z : Nat → Fp K}

open LinearCombination (ofWire termSum)

/-! ## Rows and recipes -/

/-- Every row among the items holds. -/
def RowsHold (z : Nat → Fp K) (items : List (Item K)) : Prop := ∀ c ∈ rowsOf items, c.Holds z

instance (z : Nat → Fp K) (items : List (Item K)) : Decidable (RowsHold z items) :=
  inferInstanceAs (Decidable (∀ c ∈ rowsOf items, c.Holds z))

/-- Every row among the items holds, and every wire has the value of its recipe, where the next wire
is `n`. -/
def ItemsHold (z : Nat → Fp K) : Nat → List (Item K) → Prop
  | _, [] => True
  | n, .wire recipe :: items => recipe.onValues? (·.eval z) = some (z n) ∧ ItemsHold z (n + 1) items
  | n, .row c :: items => c.Holds z ∧ ItemsHold z n items

/-- From wire `n` on the wires hold the values of the list. -/
def HoldsFrom (z : Nat → Fp K) : Nat → List (Fp K) → Prop
  | _, [] => True
  | n, x :: xs => z n = x ∧ HoldsFrom z (n + 1) xs

@[simp] theorem rowsHold_nil : RowsHold z [] := by simp [RowsHold, rowsOf]

@[simp] theorem rowsHold_wire {recipe : Recipe K} {items : List (Item K)} :
    RowsHold z (.wire recipe :: items) ↔ RowsHold z items := Iff.rfl

@[simp] theorem rowsHold_row {c : Constraint K} {items : List (Item K)} :
    RowsHold z (.row c :: items) ↔ c.Holds z ∧ RowsHold z items := List.forall_mem_cons

@[simp] theorem rowsHold_append {xs ys : List (Item K)} :
    RowsHold z (xs ++ ys) ↔ RowsHold z xs ∧ RowsHold z ys := by
  rw [RowsHold, rowsOf_append, List.forall_mem_append, RowsHold, RowsHold]

theorem ItemsHold.rowsHold {n : Nat} {items : List (Item K)} (h : ItemsHold z n items) :
    RowsHold z items := by
  induction items generalizing n with
  | nil => exact rowsHold_nil
  | cons x items ih =>
    cases x with
    | wire recipe => exact ih h.2
    | row c => exact rowsHold_row.2 ⟨h.1, ih h.2⟩

theorem itemsHold_append {n : Nat} {xs ys : List (Item K)} :
    ItemsHold z n (xs ++ ys) ↔ ItemsHold z n xs ∧ ItemsHold z (n + wireCount xs) ys := by
  induction xs generalizing n with
  | nil => simp [ItemsHold, wireCount]
  | cons x xs ih =>
    cases x with
    | wire recipe =>
      rw [List.cons_append, ItemsHold, ItemsHold, wireCount, ih, and_assoc, Nat.add_right_comm,
        Nat.add_assoc n]
    | row c => rw [List.cons_append, ItemsHold, ItemsHold, wireCount, ih, and_assoc]

/-- Without recipes there is nothing but rows. -/
theorem itemsHold_iff_rowsHold {n : Nat} {items : List (Item K)} (h : wireCount items = 0) :
    ItemsHold z n items ↔ RowsHold z items := by
  induction items with
  | nil => simp [ItemsHold]
  | cons x items ih =>
    cases x with
    | wire recipe => simp [wireCount] at h
    | row c => rw [ItemsHold, rowsHold_row, ih h]

@[simp] theorem holdsFrom_nil {n : Nat} : HoldsFrom z n [] := trivial

@[simp] theorem holdsFrom_cons {n : Nat} {x : Fp K} {xs : List (Fp K)} :
    HoldsFrom z n (x :: xs) ↔ z n = x ∧ HoldsFrom z (n + 1) xs := Iff.rfl

theorem holdsFrom_append {z : Nat → Fp K} {n : Nat} {xs ys : List (Fp K)} :
    HoldsFrom z n (xs ++ ys) ↔ HoldsFrom z n xs ∧ HoldsFrom z (n + xs.length) ys := by
  induction xs generalizing n with
  | nil => simp
  | cons x xs ih =>
    rw [List.cons_append, holdsFrom_cons, holdsFrom_cons, ih, and_assoc, List.length_cons,
      Nat.add_assoc, Nat.add_comm 1]

theorem HoldsFrom.agree {z' : Nat → Fp K} {n : Nat} {xs : List (Fp K)} (h : HoldsFrom z n xs)
    (h' : HoldsFrom z' n xs) {i : Nat} (lower : n ≤ i) (upper : i < n + xs.length) :
    z i = z' i := by
  induction xs generalizing n with
  | nil =>
    rw [List.length_nil] at upper
    omega
  | cons x xs ih =>
    rw [List.length_cons] at upper
    by_cases hi : i = n
    · rw [hi, h.1, h'.1]
    · exact ih h.2 h'.2 (by omega) (by omega)

theorem holdsFrom_iff_map (session : Nat) {n : Nat} {xs : List (Fp K)} :
    HoldsFrom z n xs ↔ (internalWires session n xs.length).map (z ·.index) = xs := by
  induction xs generalizing n with
  | nil => simp [internalWires]
  | cons x xs ih =>
    rw [holdsFrom_cons, List.length_cons, internalWires, List.map_cons, List.cons.injEq, ← ih]
    rfl

@[simp] theorem length_internalWires (session n count : Nat) :
    (internalWires session n count).length = count := by
  induction count generalizing n with
  | zero => rfl
  | succ count ih => rw [internalWires, List.length_cons, ih]

/-! ## Products -/

/-- The rows of a chain of products hold exactly if the wires hold the partial products. -/
theorem rowsHold_productItems {session n : Nat} {acc : LinearCombination K}
    {fs : List (LinearCombination K)} :
    RowsHold z (productItems session n acc fs) ↔
      HoldsFrom z n (partialProducts (acc.eval z) (fs.map (·.eval z))) := by
  induction fs generalizing n acc with
  | nil => simp [productItems, partialProducts]
  | cons f fs ih =>
    rw [productItems, rowsHold_wire, rowsHold_row, ih, Constraint.Holds, List.map_cons,
      partialProducts, holdsFrom_cons, LinearCombination.eval_ofWire]
    constructor
    · rintro ⟨hhead, htail⟩
      exact ⟨hhead.symm, by rwa [hhead]⟩
    · rintro ⟨hhead, htail⟩
      exact ⟨hhead.symm, by rwa [← hhead] at htail⟩

/-- The recipes of a chain of products say what its rows say. -/
theorem itemsHold_productItems {session n : Nat} {acc : LinearCombination K}
    {fs : List (LinearCombination K)} :
    ItemsHold z n (productItems session n acc fs) ↔ RowsHold z (productItems session n acc fs) := by
  refine ⟨ItemsHold.rowsHold, fun h => ?_⟩
  induction fs generalizing n acc with
  | nil => trivial
  | cons f fs ih =>
    rw [productItems, rowsHold_wire, rowsHold_row] at h
    refine ⟨?_, h.1, ih h.2⟩
    rw [Recipe.onValues?, h.1, LinearCombination.eval_ofWire]
    rfl

/-- The value at the end of a chain of products. -/
theorem eval_productResult {session n : Nat} {acc : LinearCombination K}
    {fs : List (LinearCombination K)}
    (h : HoldsFrom z n (partialProducts (acc.eval z) (fs.map (·.eval z)))) :
    (productResult session n acc fs).eval z = acc.eval z * (fs.map (·.eval z)).prod := by
  induction fs generalizing n acc with
  | nil => simp [productResult]
  | cons f fs ih =>
    rw [List.map_cons, partialProducts, holdsFrom_cons] at h
    have hacc : (ofWire (.internal session n) : LinearCombination K).eval z =
        acc.eval z * f.eval z := by
      rw [LinearCombination.eval_ofWire]
      exact h.1
    rw [productResult, ih (by rw [hacc]; exact h.2), hacc, List.map_cons, List.prod_cons, mul_assoc]

/-! ## Sums -/

theorem eval_foldl_add (acc : LinearCombination K) (as : List (LinearCombination K)) :
    (as.foldl (· + ·) acc).eval z = acc.eval z + (as.map (·.eval z)).sum := by
  induction as generalizing acc with
  | nil => simp
  | cons a as ih =>
    rw [List.foldl_cons, ih, LinearCombination.eval_add, List.map_cons, List.sum_cons, add_assoc]

theorem eval_weightedSum (acc : LinearCombination K) (weight : Fp K)
    (bs : List (LinearCombination K)) :
    (weightedSum acc weight bs).eval z =
      acc.eval z + weight * Fp.bitSum (bs.map (·.eval z)) := by
  induction bs generalizing acc weight with
  | nil => simp [weightedSum, Fp.bitSum]
  | cons b bs ih =>
    rw [weightedSum, ih, LinearCombination.eval_add, LinearCombination.eval_scale, List.map_cons,
      Fp.bitSum]
    ring

theorem termSum_weighted (weight : Fp K) (ws : List Wire) :
    termSum z (Build.weighted weight ws) = weight * Fp.bitSum (ws.map (z ·.index)) := by
  induction ws generalizing weight with
  | nil => simp [Build.weighted, Fp.bitSum]
  | cons w ws ih =>
    rw [Build.weighted, LinearCombination.termSum_cons, ih, List.map_cons, Fp.bitSum]
    ring

/-! ## Bits -/

/-- The recipes of bits say that the wires hold the bits, and then their rows hold too. -/
theorem itemsHold_bitItems {session n i count : Nat} {a : LinearCombination K} (one : z 0 = 1) :
    ItemsHold z n (bitItems session a n i count) ↔
      HoldsFrom z n (Fp.bitList K ((a.eval z).val / 2 ^ i) count) := by
  induction count generalizing n i with
  | zero => simp [bitItems, ItemsHold, Fp.bitList]
  | succ count ih =>
    have hbit : ((a.eval z).val / 2 ^ i).testBit 0 = (a.eval z).val.testBit i := by
      rw [Nat.testBit_div_two_pow, Nat.zero_add]
    have hrest : (a.eval z).val / 2 ^ i / 2 = (a.eval z).val / 2 ^ (i + 1) := by
      rw [Nat.div_div_eq_div_mul, ← pow_succ]
    rw [bitItems, ItemsHold, ItemsHold, ih, Fp.bitList_succ, holdsFrom_cons, hbit, hrest,
      Recipe.onValues?, Option.some.injEq, eq_comm]
    refine and_congr_right fun hhead => and_iff_right ?_
    rw [Constraint.Holds, LinearCombination.eval_sub, LinearCombination.eval_ofWire,
      LinearCombination.eval_constant, LinearCombination.eval_zero, one]
    show z n * (1 * 1 - z n) = 0
    rw [hhead]
    rcases Fp.isBit_ofBool (K := K) ((a.eval z).val.testBit i) with h | h
    · rw [h, zero_mul]
    · rw [h, mul_one, sub_self, mul_zero]

section
variable [prime : Fact K.modulus.Prime]

/-- The equation of an asserted bit. -/
theorem isBit_iff {a : Fp K} : a.IsBit ↔ a * (1 - a) = 0 := by
  rw [Fp.IsBit, mul_eq_zero, sub_eq_zero, eq_comm (a := (1 : Fp K))]

theorem rowsHold_booleanItems {tag : Tag} {a : LinearCombination K} (one : z 0 = 1)
    (accepted : a.IfConstant Fp.IsBit) : RowsHold z (booleanItems tag a) ↔ (a.eval z).IsBit := by
  rw [booleanItems, LinearCombination.isConstant]
  cases hc : a.asConstant? with
  | none =>
    rw [isBit_iff]
    simp [Constraint.Holds, one]
  | some k =>
    rw [LinearCombination.eval_of_asConstant hc one]
    simp [accepted k hc]

/-- Wires pass the rows of bits exactly if they hold bits. -/
theorem rowsHold_bitItems {session n i count : Nat} {a : LinearCombination K} (one : z 0 = 1) :
    RowsHold z (bitItems session a n i count) ↔
      ∀ b ∈ (internalWires session n count).map (z ·.index), b.IsBit := by
  induction count generalizing n i with
  | zero => simp [bitItems, internalWires]
  | succ count ih =>
    rw [bitItems, rowsHold_wire, rowsHold_row, ih, internalWires, List.map_cons,
      List.forall_mem_cons, isBit_iff, Constraint.Holds, LinearCombination.eval_sub,
      LinearCombination.eval_ofWire, LinearCombination.eval_constant, LinearCombination.eval_zero,
      one, mul_one]

/-- The rows of a decomposition hold exactly if the value fits and the wires hold its bits. -/
theorem rowsHold_toBinary {session n count : Nat} {a : LinearCombination K} (one : z 0 = 1)
    (accepted : (Operation.toBinary a count).Accepted) :
    RowsHold z ((Operation.toBinary a count).items session n) ↔
      (a.eval z).val < 2 ^ count ∧ HoldsFrom z n ((a.eval z).bitsOf count) := by
  have room : 2 ^ count ≤ K.modulus :=
    le_trans (Nat.pow_le_pow_right Nat.zero_lt_two accepted.2) (two_pow_maxBits_le K)
  rw [Operation.items, rowsHold_append, rowsHold_bitItems one, rowsHold_row,
    and_iff_left rowsHold_nil, Constraint.Holds, LinearCombination.eval_ofTerms, termSum_weighted,
    Build.one, LinearCombination.eval_ofWire, Wire.one, one, one_mul, mul_one,
    holdsFrom_iff_map session, Fp.length_bitsOf]
  generalize hbs : (internalWires session n count).map (z ·.index) = bs
  have hlen : bs.length = count := by
    rw [← hbs, List.length_map, length_internalWires]
  subst hlen
  constructor
  · rintro ⟨hbits, hsum⟩
    exact (Fp.bitSum_eq_iff hbits room).1 hsum
  · rintro ⟨hlt, hbits⟩
    have isBits : ∀ b ∈ bs, b.IsBit := by
      rw [hbits]
      exact fun b hb => Fp.isBit_of_mem_bitList hb
    exact ⟨isBits, (Fp.bitSum_eq_iff isBits room).2 ⟨hlt, hbits⟩⟩

/-! ## Division and the test for zero -/

theorem mul_eq_one_iff_eq_inv {a v : Fp K} : a * v = 1 ↔ a ≠ 0 ∧ v = a⁻¹ := by
  constructor
  · intro h
    have ha : a ≠ 0 := left_ne_zero_of_mul_eq_one h
    exact ⟨ha, eq_inv_of_mul_eq_one_right h⟩
  · rintro ⟨ha, rfl⟩
    exact mul_inv_cancel₀ ha

/-- The two rows of a test for zero settle the answer, and the inverse of all but zero. -/
theorem isZero_rows_iff {a m out : Fp K} :
    a * m = 1 - out ∧ a * out = 0 ↔ (a ≠ 0 → m = a⁻¹) ∧ out = if a = 0 then 1 else 0 := by
  by_cases ha : a = 0
  · subst ha
    rw [if_pos rfl, zero_mul, zero_mul, eq_comm, sub_eq_zero]
    simp [eq_comm]
  · rw [if_neg ha, mul_eq_zero, or_iff_right ha]
    constructor
    · rintro ⟨hm, rfl⟩
      rw [sub_zero] at hm
      exact ⟨fun _ => (mul_eq_one_iff_eq_inv.1 hm).2, rfl⟩
    · rintro ⟨hm, rfl⟩
      rw [hm ha, sub_zero]
      exact ⟨mul_inv_cancel₀ ha, rfl⟩

end

end Groth16
