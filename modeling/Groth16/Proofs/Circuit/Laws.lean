import Groth16.Proofs.Circuit.Gadgets

/-!
# Laws of the operations

What the builder records for an operation is, read by a verifier or by a prover, the meaning of the
operation.  For an assignment with `z 0 = 1` and an operation that was accepted:

* `Operation.rowsHold_iff`: the rows hold exactly if the operation is possible and its wires are
  `Settled`: they have the values that they should have.  The inverse of zero in a test for zero is
  all that the rows leave open.
* `Operation.itemsHold_iff`: rows and recipes hold exactly if the operation is possible and its
  wires have the values that they should have, without exception.
* `Operation.values_result`: where the wires are settled, the result has the values that the
  operation names.

A quotient needs care: its row `b · q = a` says nothing about `q` where `a` and `b` are both zero,
so the law of the rows asks for `Operation.Divides`, that no divisor is zero which is not a constant.
-/

set_option autoImplicit false

namespace Groth16

variable {K : PrimeField} {z : Nat → Fp K}

open LinearCombination (ofWire)

namespace Operation

/-- The divisor is not zero, unless it is a constant. -/
def Divides (v : LinearCombination K → Fp K) : Operation K → Prop
  | div _ b => b.isConstant = false → v b ≠ 0
  | _ => True

instance (v : LinearCombination K → Fp K) : ∀ op : Operation K, Decidable (op.Divides v)
  | div _ b => inferInstanceAs (Decidable (b.isConstant = false → v b ≠ 0))
  | constant _ | add _ _ | sub _ _ | neg _ | scale _ _ | sum _ | mul _ _ | mulMany _
  | assertEqual _ _ | inverse _ | assertBoolean _ | select _ _ _ | isZero _ | toBinary _ _
  | fromBinary _ => isTrue trivial

theorem Possible.divides {op : Operation K} {v : LinearCombination K → Fp K} (h : op.Possible v) :
    op.Divides v := by
  cases op with
  | div a b => exact fun _ => h
  | _ => trivial

section
variable [prime : Fact K.modulus.Prime]

/-- The wires from `n` on have the values that they should have for the operation, but for what its
rows leave open. -/
def Settled (z : Nat → Fp K) (n : Nat) : Operation K → Prop
  | isZero a => a.isConstant = false →
      (a.eval z ≠ 0 → z n = (a.eval z)⁻¹) ∧ z (n + 1) = if a.eval z = 0 then 1 else 0
  | op => HoldsFrom z n (op.wireValues (·.eval z))

/-- As many wires have values as are allocated. -/
theorem length_wireValues (op : Operation K) (v : LinearCombination K → Fp K) (session n : Nat) :
    (op.wireValues v).length = wireCount (op.items session n) := by
  cases op with
  | mul a b =>
    rw [items, wireCount_productItems]
    rfl
  | mulMany as =>
    cases as with
    | nil => rfl
    | cons a as =>
      rw [items, wireCount_productItems, wireValues, length_partialProducts, List.length_map]
  | inverse a =>
    rw [wireValues, items]
    split <;> rfl
  | div a b =>
    rw [wireValues, items]
    split <;> rfl
  | select bit x y =>
    rw [wireValues, items, wireCount_append, wireCount_booleanItems]
    split <;> rfl
  | isZero a =>
    rw [wireValues, items]
    split <;> rfl
  | toBinary a count =>
    rw [wireValues, Fp.length_bitsOf, items, wireCount_append, wireCount_bitItems]
    rfl
  | fromBinary as =>
    rw [wireValues, items, wireCount_flatMap_booleanItems]
    rfl
  | assertBoolean a =>
    rw [wireValues, items, wireCount_booleanItems]
    rfl
  | assertEqual a b =>
    rw [wireValues, items]
    split <;> rfl
  | _ => rfl

/-- The rows of the recomposition are those of its bits. -/
theorem rowsHold_fromBinary {as : List (LinearCombination K)} (one : z 0 = 1)
    (accepted : (fromBinary as).Accepted) :
    RowsHold z (as.flatMap (booleanItems .boolean)) ↔ ∀ a ∈ as, (a.eval z).IsBit := by
  induction as with
  | nil => simp
  | cons a as ih =>
    rw [Accepted, List.forall_mem_cons] at accepted
    rw [List.flatMap_cons, rowsHold_append, rowsHold_booleanItems one accepted.1, ih accepted.2,
      List.forall_mem_cons]

/-- **What the rows of an operation say.**  They hold exactly if the operation is possible and its
wires are settled. -/
theorem rowsHold_iff {op : Operation K} (one : z 0 = 1) (accepted : op.Accepted)
    (divides : op.Divides (·.eval z)) (session n : Nat) :
    RowsHold z (op.items session n) ↔ op.Possible (·.eval z) ∧ op.Settled z n := by
  cases op with
  | mul a b => simp [items, rowsHold_productItems, Possible, Settled, wireValues, partialProducts]
  | mulMany as =>
    cases as with
    | nil => simp [items, Possible, Settled, wireValues]
    | cons a as => simp [items, rowsHold_productItems, Possible, Settled, wireValues]
  | assertEqual a b =>
    rw [items, LinearCombination.isConstant, LinearCombination.isConstant]
    cases hc : a.asConstant? with
    | none =>
      simp [Constraint.Holds, Build.one, Wire.one, one, Possible, Settled, wireValues]
    | some x =>
      cases hd : b.asConstant? with
      | none =>
        simp [Constraint.Holds, Build.one, Wire.one, one, Possible, Settled, wireValues]
      | some y =>
        have same : a.eval z = b.eval z := by
          rw [LinearCombination.eval_of_asConstant hc one,
            LinearCombination.eval_of_asConstant hd one]
          exact accepted x y hc hd
        simp [Possible, Settled, wireValues, same]
  | inverse a =>
    simp only [items, Possible, Settled, wireValues]
    cases hc : a.asConstant? with
    | none =>
      simp [LinearCombination.isConstant_of_eq_none hc, Constraint.Holds, Build.one, Wire.one,
        Wire.internal, one, mul_eq_one_iff_eq_inv]
    | some k =>
      have hk : k ≠ 0 := accepted k hc
      simp [LinearCombination.isConstant_of_eq_some hc, LinearCombination.eval_of_asConstant hc one,
        hk]
  | div a b =>
    simp only [items, Possible, Settled, wireValues]
    cases hc : b.asConstant? with
    | none =>
      have hnot := LinearCombination.isConstant_of_eq_none hc
      have hb : b.eval z ≠ 0 := divides hnot
      simp [hnot, Constraint.Holds, Wire.internal, hb, eq_div_iff, mul_comm]
    | some k =>
      have hk : k ≠ 0 := accepted k hc
      simp [LinearCombination.isConstant_of_eq_some hc, LinearCombination.eval_of_asConstant hc one,
        hk]
  | assertBoolean a =>
    rw [items, rowsHold_booleanItems one accepted]
    simp [Possible, Settled, wireValues]
  | select bit x y =>
    simp only [items, rowsHold_append, rowsHold_booleanItems one accepted, Possible, Settled,
      wireValues]
    refine and_congr_right fun _ => ?_
    split
    · simp
    · simp [Constraint.Holds, Wire.internal, eq_comm]
  | isZero a =>
    simp only [items, Possible, Settled]
    cases hc : a.isConstant with
    | true => simp
    | false =>
      simp only [Bool.false_eq_true, if_false, rowsHold_wire, rowsHold_row, Constraint.Holds,
        LinearCombination.eval_sub, LinearCombination.eval_constant, LinearCombination.eval_ofWire,
        LinearCombination.eval_zero, Wire.internal, one, mul_one, and_iff_left rowsHold_nil,
        isZero_rows_iff, true_and, forall_const]
  | toBinary a count =>
    rw [rowsHold_toBinary one accepted]
    simp [Possible, Settled, wireValues]
  | fromBinary as =>
    rw [items, rowsHold_fromBinary one accepted]
    simp [Possible, Settled, wireValues]
  | _ => simp [items, Possible, Settled, wireValues]

/-- **What rows and recipes of an operation say.**  They hold exactly if the operation is possible
and its wires have the values that they should have. -/
theorem itemsHold_iff {op : Operation K} (one : z 0 = 1) (accepted : op.Accepted)
    (session n : Nat) : ItemsHold z n (op.items session n) ↔
      op.Possible (·.eval z) ∧ HoldsFrom z n (op.wireValues (·.eval z)) := by
  cases op with
  | mul a b =>
    rw [items, itemsHold_productItems, rowsHold_productItems]
    simp [Possible, wireValues, partialProducts]
  | mulMany as =>
    cases as with
    | nil => simp [items, Possible, wireValues, ItemsHold]
    | cons a as =>
      rw [items, itemsHold_productItems, rowsHold_productItems]
      simp [Possible, wireValues]
  | inverse a =>
    simp only [items, Possible, wireValues]
    cases hc : a.asConstant? with
    | none =>
      simp [LinearCombination.isConstant_of_eq_none hc, ItemsHold, Recipe.onValues?,
        Fp.inverse?_eq_some_iff, Constraint.Holds, Build.one, Wire.one, Wire.internal, one,
        mul_eq_one_iff_eq_inv]
    | some k =>
      have hk : k ≠ 0 := accepted k hc
      simp [LinearCombination.isConstant_of_eq_some hc, LinearCombination.eval_of_asConstant hc one,
        hk, ItemsHold]
  | div a b =>
    simp only [items, Possible, wireValues]
    cases hc : b.asConstant? with
    | none =>
      simp only [LinearCombination.isConstant_of_eq_none hc, Bool.false_eq_true, if_false,
        ItemsHold, Recipe.onValues?, Option.map_eq_some_iff, Fp.inverse?_eq_some_iff,
        Constraint.Holds, LinearCombination.eval_ofWire, Wire.internal, and_true, holdsFrom_cons,
        holdsFrom_nil]
      constructor
      · rintro ⟨⟨_, ⟨hb, rfl⟩, hq⟩, -⟩
        exact ⟨hb, hq.symm.trans (div_eq_mul_inv _ _).symm⟩
      · rintro ⟨hb, hq⟩
        exact ⟨⟨_, ⟨hb, rfl⟩, (hq.trans (div_eq_mul_inv _ _)).symm⟩, by
          rw [hq, mul_div_cancel₀ _ hb]⟩
    | some k =>
      have hk : k ≠ 0 := accepted k hc
      simp [LinearCombination.isConstant_of_eq_some hc, LinearCombination.eval_of_asConstant hc one,
        hk, ItemsHold]
  | select bit x y =>
    simp only [items, itemsHold_append, wireCount_booleanItems, Nat.add_zero,
      itemsHold_iff_rowsHold (wireCount_booleanItems _ _), rowsHold_booleanItems one accepted,
      Possible, wireValues]
    refine and_congr_right fun _ => ?_
    split
    · simp [ItemsHold]
    · simp only [ItemsHold, Recipe.onValues?, LinearCombination.eval_sub, Option.some.injEq,
        Constraint.Holds, LinearCombination.eval_ofWire, Wire.internal, and_true, holdsFrom_cons,
        holdsFrom_nil, and_self, eq_comm]
  | isZero a =>
    simp only [items, Possible, wireValues]
    cases hc : a.isConstant with
    | true => simp [ItemsHold]
    | false =>
      simp only [Bool.false_eq_true, if_false, ItemsHold, Recipe.onValues?, Option.some.injEq,
        Fp.inverseOrZero_eq_inv, Constraint.Holds, LinearCombination.eval_sub,
        LinearCombination.eval_constant, LinearCombination.eval_ofWire,
        LinearCombination.eval_zero, Wire.internal, one, mul_one, and_true, isZero_rows_iff,
        true_and, holdsFrom_cons, holdsFrom_nil]
      constructor
      · rintro ⟨hm, -, -, hout⟩
        exact ⟨hm.symm, hout⟩
      · rintro ⟨hm, hout⟩
        refine ⟨hm.symm, ?_, fun _ => hm, hout⟩
        rw [hout, Fp.ofBool]
        simp
  | toBinary a count =>
    have hrows : RowsHold z ((toBinary a count).items session n) ↔
        (a.eval z).val < 2 ^ count ∧ HoldsFrom z n ((a.eval z).bitsOf count) :=
      rowsHold_toBinary one accepted
    constructor
    · intro h
      exact hrows.1 h.rowsHold
    · intro h
      have hitems := hrows.2 h
      rw [items, rowsHold_append] at hitems
      rw [items, itemsHold_append, itemsHold_bitItems one, pow_zero, Nat.div_one,
        itemsHold_iff_rowsHold rfl]
      exact ⟨h.2, hitems.2⟩
  | assertEqual a b | assertBoolean a | fromBinary as =>
    -- No wire is allocated, so there is no recipe either.
    rw [itemsHold_iff_rowsHold (length_wireValues _ (·.eval z) session n).symm,
      rowsHold_iff one accepted trivial]
    rfl
  | _ => simp [items, Possible, wireValues, ItemsHold]

/-- Two assignments on which the wires of an operation are settled agree on them as far as the
operands agree, but for the inverse of zero in a test for zero. -/
theorem Settled.agree {op : Operation K} {z' : Nat → Fp K} {session n : Nat}
    (h : op.Settled z n) (h' : op.Settled z' n) (same : ∀ a ∈ op.operands, a.eval z = a.eval z')
    {i : Nat} (lower : n ≤ i) (upper : i < n + wireCount (op.items session n)) :
    z i = z' i ∨ i = n ∧ ∃ a, op = isZero a ∧ a.isConstant = false ∧ a.eval z = 0 := by
  rw [← length_wireValues op (·.eval z) session n] at upper
  cases op with
  | isZero a =>
    have ha : a.eval z = a.eval z' := same a (List.mem_singleton_self a)
    by_cases hc : a.isConstant
    · simp only [wireValues, hc, if_true, List.length_nil] at upper
      omega
    · rw [Bool.not_eq_true] at hc
      obtain ⟨hinv, hout⟩ := h hc
      obtain ⟨hinv', hout'⟩ := h' hc
      simp only [wireValues, hc, Bool.false_eq_true, if_false, List.length_cons,
        List.length_nil] at upper
      by_cases hi : i = n
      · subst hi
        by_cases hzero : a.eval z = 0
        · exact .inr ⟨rfl, a, rfl, hc, hzero⟩
        · exact .inl (by rw [hinv hzero, hinv' (by rwa [← ha]), ha])
      · obtain rfl : i = n + 1 := by omega
        exact .inl (by rw [hout, hout', ha])
  | _ =>
    refine .inl (HoldsFrom.agree h ?_ lower upper)
    rw [wireValues_congr same]
    exact h'

/-- **What the result of an operation stands for**, where its wires are settled. -/
theorem values_result {op : Operation K} {n : Nat} (one : z 0 = 1) (accepted : op.Accepted)
    (possible : op.Possible (·.eval z)) (settled : op.Settled z n) (session : Nat) :
    (op.result session n).values z = op.values (·.eval z) := by
  cases op with
  | constant k => simp [result, values, Result.values, one]
  | scale a k => simp [result, values, Result.values]
  | sum as => simp [result, values, Result.values, eval_foldl_add]
  | mul a b =>
    simp only [Settled, wireValues, holdsFrom_cons] at settled
    simp [result, values, Result.values, Wire.internal, settled.1]
  | mulMany as =>
    cases as with
    | nil => exact absurd rfl accepted
    | cons a as =>
      simp only [Settled, wireValues] at settled
      simp [result, values, Result.values, eval_productResult settled]
  | inverse a =>
    simp only [Settled, wireValues] at settled
    simp only [result, values, Result.values]
    cases hc : a.asConstant? with
    | none =>
      simp only [LinearCombination.isConstant_of_eq_none hc, Bool.false_eq_true, if_false,
        holdsFrom_cons] at settled
      simp [Wire.internal, settled.1]
    | some k =>
      simp [LinearCombination.eval_of_asConstant hc one, Fp.inverseOrZero_eq_inv, one]
  | div a b =>
    simp only [Settled, wireValues] at settled
    simp only [result, values, Result.values]
    cases hc : b.asConstant? with
    | none =>
      simp only [LinearCombination.isConstant_of_eq_none hc, Bool.false_eq_true, if_false,
        holdsFrom_cons] at settled
      simp [Wire.internal, settled.1]
    | some k =>
      simp [LinearCombination.eval_of_asConstant hc one, Fp.inverseOrZero_eq_inv, div_eq_inv_mul]
  | select bit x y =>
    simp only [Settled, wireValues] at settled
    simp only [result, values, Result.values]
    cases hc : bit.asConstant? with
    | none =>
      rw [LinearCombination.isConstant_of_eq_none hc, Bool.false_or] at settled
      by_cases hd : (x - y).isEmpty
      · -- The branches are equal, so it does not matter which is taken.
        have same : x.eval z = y.eval z := by
          have hzero := LinearCombination.eval_of_isEmpty hd z
          rw [LinearCombination.eval_sub] at hzero
          exact sub_eq_zero.1 hzero
        simp [hd, same]
      · rw [if_neg hd, holdsFrom_cons] at settled
        simp only [hd, Bool.false_eq_true, if_false, LinearCombination.eval_add,
          LinearCombination.eval_ofWire, Wire.internal, settled.1]
        rcases possible with h | h
        · simp [h]
        · simp [h]
    | some k =>
      rw [LinearCombination.eval_of_asConstant hc one]
      by_cases hk : k = 1
      · simp [hk]
      · simp [hk]
  | isZero a =>
    simp only [result, values, Result.values]
    cases hc : a.asConstant? with
    | none =>
      have hout := (settled (LinearCombination.isConstant_of_eq_none hc)).2
      simp [Wire.internal, hout]
    | some k => simp [LinearCombination.eval_of_asConstant hc one, Fp.ofBool, one]
  | toBinary a count =>
    simp only [Settled, wireValues] at settled
    have hmap := (holdsFrom_iff_map session).1 settled
    rw [Fp.length_bitsOf] at hmap
    simp [result, values, Result.values, hmap]
  | fromBinary as => simp [result, values, Result.values, eval_weightedSum]
  | _ => simp [result, values, Result.values]

end

end Operation

end Groth16
