import Mathlib.Algebra.BigOperators.Group.Finset.Basic
import Groth16.Curve.Multiples
import Groth16.Proofs.Curve.Groups
import Groth16.Proofs.Field.Vectors

/-!
# Sums of multiples are sums

However many partial sums a sum of multiples is split into, it is the sum.

* `LawfulSums`: what a sum in parts relies on.
* `sum_partialSums`: the partial sums add up to the sum.
* `msm_eq_sum`: a sum of multiples is the sum of the multiples.
* `msm_fixedBase`: a sum of multiples of multiples of one point.
-/

set_option autoImplicit false

namespace Groth16

variable {K : PrimeField} {G : Type} [ScalarGroup K G]

open Finset

/-! ## Addition -/

/-- Points are added up as in a commutative group, and what is given for a sum of multiples is this
sum.  Neither negatives nor the order of the group matter for a sum in parts. -/
class LawfulSums (K : outParam PrimeField) (G : Type) [ScalarGroup K G] : Prop where
  /-- Addition is associative. -/
  add_assoc (p q r : G) : p + q + r = p + (q + r)
  /-- Addition is commutative. -/
  add_comm (p q : G) : p + q = q + p
  /-- Zero is neutral. -/
  zero_add (p : G) : 0 + p = p
  /-- A sum of multiples is this sum. -/
  sumOfMultiples_eq (xs : List (G × Fp K)) :
    ScalarGroup.sumOfMultiples xs = (xs.map fun x => x.2 • x.1).sum

instance [lawful : LawfulScalarGroup K G] : LawfulSums K G where
  add_assoc := lawful.add_assoc
  add_comm p q := AddCommMagma.add_comm p q
  zero_add := lawful.zero_add
  sumOfMultiples_eq := lawful.sumOfMultiples_eq

section
variable [lawful : LawfulSums K G]

instance LawfulSums.associative : Std.Associative fun p q : G => p + q := ⟨lawful.add_assoc⟩

instance LawfulSums.commutative : Std.Commutative fun p q : G => p + q := ⟨lawful.add_comm⟩

instance LawfulSums.lawfulIdentity : Std.LawfulIdentity (fun p q : G => p + q) 0 where
  left_id := lawful.zero_add
  right_id p := (lawful.add_comm p 0).trans (lawful.zero_add p)

end

/-! ## Partial sums -/

/-- The sum of the multiples of points by scalars, point by point. -/
def plainSum (bases : List G) (scalars : List (Fp K)) : G :=
  ((bases.zip scalars).map fun x => x.2 • x.1).sum

section
variable [lawful : LawfulSums K G]

theorem plainSum_append {bases : List G} {scalars : List (Fp K)}
    (length : bases.length = scalars.length) (bases' : List G) (scalars' : List (Fp K)) :
    plainSum (bases ++ bases') (scalars ++ scalars') =
      plainSum bases scalars + plainSum bases' scalars' := by
  rw [plainSum, List.zip_append length, List.map_append, List.sum_append]
  rfl

/-- The partial sums add up to the sum. -/
theorem sum_partialSums (k : Nat) (bases : List G) (scalars : List (Fp K))
    (length : bases.length = scalars.length) :
    (partialSums k bases scalars).sum = plainSum bases scalars := by
  induction bases using stretches.induct k generalizing scalars with
  | case1 =>
    rw [partialSums, stretches]
    rfl
  | case2 b bases ih =>
    cases scalars with
    | nil => cases length
    | cons s scalars =>
      have length' : bases.length = scalars.length := Nat.succ.inj length
      have hrest := ih (scalars.drop k) (by rw [List.length_drop, List.length_drop, length'])
      have htake : (b :: bases.take k).length = (s :: scalars.take k).length := by
        simp only [List.length_cons, List.length_take, length']
      have hsplit := plainSum_append htake (bases.drop k) (scalars.drop k)
      rw [List.cons_append, List.cons_append, List.take_append_drop, List.take_append_drop]
        at hsplit
      rw [hsplit, ← hrest, partialSums, stretches, stretches, List.zipWith_cons_cons,
        List.sum_cons, lawful.sumOfMultiples_eq]
      rfl

/-- **A sum of multiples is the sum of the multiples**, however it is split. -/
theorem msm_eq_sum (workers : Nat) (bases : List G) (scalars : List (Fp K)) :
    msm workers bases scalars = plainSum bases scalars := by
  have htake : plainSum bases scalars =
      plainSum (bases.take (min bases.length scalars.length))
        (scalars.take (min bases.length scalars.length)) := by
    rw [plainSum, List.zip_eq_zip_take_min]
    rfl
  have length : (bases.take (min bases.length scalars.length)).length =
      (scalars.take (min bases.length scalars.length)).length := by
    simp only [List.length_take]
    omega
  rw [htake, msm]
  split
  · next hzero =>
    rw [hzero]
    rfl
  · dsimp only
    split
    · rw [← sum_partialSums _ _ _ length, List.sum_eq_foldl]
    · exact lawful.sumOfMultiples_eq _

end

/-- A sum of multiples of multiples of one point. -/
theorem msm_fixedBase [LawfulScalarGroup K G] (workers : Nat) (g : G) (xs ys : List (Fp K)) :
    msm workers (fixedBase g xs) ys = (∑ i ∈ range xs.length, listAt xs i * listAt ys i) • g := by
  rw [msm_eq_sum]
  induction xs generalizing ys with
  | nil =>
    rw [List.length_nil, range_zero, sum_empty, zero_smul]
    rfl
  | cons x xs ih =>
    cases ys with
    | nil =>
      rw [sum_eq_zero fun i _ => by rw [listAt_nil, mul_zero], zero_smul]
      rfl
    | cons y ys =>
      have hcons : plainSum (fixedBase g (x :: xs)) (y :: ys) =
          y • x • g + plainSum (fixedBase g xs) ys := List.sum_cons
      rw [hcons, ih, List.length_cons, sum_range_succ']
      simp only [listAt_cons_succ, listAt_cons_zero]
      rw [add_smul, ← mul_smul, mul_comm y, add_comm]

end Groth16
