import Mathlib.Tactic.FieldSimp
import Mathlib.Tactic.LinearCombination
import Groth16.Proofs.Field.Laws

/-!
# Powers that elements of a prime field can be

An element that is a power `n` has a trivial power `(modulus - 1) / n`, by Fermat's little theorem.
This tells which elements are no squares or cubes, and where the modulus is three modulo four it
gives the square roots.

* `Fp.pow_div_eq_one`: the power `(modulus - 1) / n` of a power `n`.
* `Fp.mul_self_quarter`: the power `(modulus + 1) / 4` of a square is a square root of it.
* `Fp.sum_squares_eq_zero_iff`: `-1` is not a square, so a sum of two squares is zero only if both
  are.
-/

set_option autoImplicit false

namespace Groth16.Fp

variable {K : PrimeField} [prime : Fact K.modulus.Prime]

theorem pow_div_eq_one {x : Fp K} (hx : x ≠ 0) {n : Nat} (dvd : n ∣ K.modulus - 1) :
    (x ^ n) ^ ((K.modulus - 1) / n) = 1 := by
  rw [← pow_mul, Nat.mul_div_cancel' dvd]
  exact pow_modulus_sub_one hx

/-- If the modulus is three modulo four, a power is a square root of every square. -/
theorem mul_self_quarter (mod : K.modulus % 4 = 3) (y : Fp K) :
    power (y * y) ((K.modulus + 1) / 4) * power (y * y) ((K.modulus + 1) / 4) = y * y := by
  show (y * y) ^ ((K.modulus + 1) / 4) * (y * y) ^ ((K.modulus + 1) / 4) = y * y
  by_cases hy : y = 0
  · have hpos : (K.modulus + 1) / 4 ≠ 0 := by omega
    rw [hy, mul_zero, zero_pow hpos, mul_zero]
  · have hexp : 2 * (2 * ((K.modulus + 1) / 4)) = K.modulus - 1 + 2 := by omega
    rw [← pow_two y, ← pow_mul, ← pow_two, ← pow_mul, mul_comm _ 2, hexp, pow_add,
      pow_modulus_sub_one hy, one_mul]

/-- If the modulus is three modulo four, `-1` is not a square. -/
theorem mul_self_ne_neg_one (mod : K.modulus % 4 = 3) (x : Fp K) : x * x ≠ -1 := by
  intro h
  have hx : x ≠ 0 := by
    rintro rfl
    rw [mul_zero] at h
    exact one_ne_zero (neg_eq_zero.1 h.symm)
  have hodd : Odd ((K.modulus - 1) / 2) := ⟨(K.modulus - 3) / 4, by omega⟩
  have hone : (-1 : Fp K) ^ ((K.modulus - 1) / 2) = 1 := by
    rw [← h, ← pow_two]
    exact pow_div_eq_one hx ⟨(K.modulus - 1) / 2, by omega⟩
  rw [hodd.neg_one_pow] at hone
  -- A modulus of three modulo four is not two.
  have htwo : ((2 : Nat) : Fp K) = 0 := by
    push_cast
    linear_combination -hone
  have hdvd := Nat.le_of_dvd Nat.two_pos ((natCast_eq_zero_iff 2).1 htwo)
  omega

theorem sum_squares_eq_zero_iff (mod : K.modulus % 4 = 3) {a b : Fp K} :
    a * a + b * b = 0 ↔ a = 0 ∧ b = 0 := by
  constructor
  · intro h
    have hb : b = 0 := by
      by_contra hb
      refine mul_self_ne_neg_one mod (a / b) ?_
      field_simp
      linear_combination h
    refine ⟨?_, hb⟩
    rw [hb, mul_zero, add_zero] at h
    exact mul_self_eq_zero.1 h
  · rintro ⟨rfl, rfl⟩
    rw [mul_zero, add_zero]

end Groth16.Fp
