import Mathlib.FieldTheory.Finite.Basic
import Groth16.Field.Basic

/-!
# Residues form a field

The residues of `Groth16.Fp` are computed with their own operations.  This file shows that these
operations are the ones of `ZMod`, carried over along `Fp.toZMod`, so that everything Mathlib knows
about commutative rings holds of `Fp K`, and everything it knows about fields if the modulus is
prime.

* `map_power`: square-and-multiply computes powers, along any map that respects the operations.
* `Fp.toZMod`: the residue as an element of `ZMod`, an injective map.
* `CommRing (Fp K)` and, for a prime modulus, `Field (Fp K)`, whose inverse is `inverseOrZero`.

The instances use the operations that the rest of the library computes with, so a statement about
`a + b`, `a ^ n` or `a⁻¹` is a statement about the program.
-/

set_option autoImplicit false

namespace Groth16

universe u v

/-! ## Square-and-multiply -/

/-- The invariant of square-and-multiply: as long as the fuel covers the exponent, what is returned
is the power. -/
theorem map_powerWithin {M : Type u} {N : Type v} [One M] [Mul M] [Monoid N] (f : M → N)
    (one : f 1 = 1) (mul : ∀ x y, f (x * y) = f x * f y) (fuel : Nat) (x : M) (n : Nat)
    (h : n < 2 ^ fuel) : f (powerWithin fuel x n) = f x ^ n := by
  induction fuel generalizing x n with
  | zero =>
    have : n = 0 := by simpa using h
    subst this
    rw [powerWithin, one, pow_zero]
  | succ fuel ih =>
    have hhalf : n / 2 < 2 ^ fuel := by
      rw [pow_succ] at h
      omega
    have hsq : f (powerWithin fuel (x * x) (n / 2)) = f x ^ (2 * (n / 2)) := by
      rw [ih _ _ hhalf, mul, ← pow_two, ← pow_mul]
    rw [powerWithin]
    by_cases hodd : n % 2 = 1
    · rw [if_pos hodd, mul, hsq, ← pow_succ']
      congr 1
      omega
    · rw [if_neg hodd, hsq]
      congr 1
      omega

/-- `power` computes powers, along any map into a monoid that respects products. -/
theorem map_power {M : Type u} {N : Type v} [One M] [Mul M] [Monoid N] (f : M → N)
    (one : f 1 = 1) (mul : ∀ x y, f (x * y) = f x * f y) (x : M) (n : Nat) :
    f (power x n) = f x ^ n := by
  rw [power]
  split
  · next h => rw [h, one, pow_zero]
  · exact map_powerWithin f one mul _ x n Nat.lt_log2_self

namespace Fp

variable {K : PrimeField}

/-! ## The map to `ZMod` -/

/-- The residue as an element of `ZMod`. -/
def toZMod (a : Fp K) : ZMod K.modulus := (a.val : ZMod K.modulus)

theorem toZMod_injective : Function.Injective (toZMod : Fp K → ZMod K.modulus) := by
  intro a b h
  have hmod : a.val ≡ b.val [MOD K.modulus] := (ZMod.natCast_eq_natCast_iff _ _ _).1 h
  exact Fp.ext (Nat.ModEq.eq_of_lt_of_lt hmod a.isLt b.isLt)

theorem toZMod_ofNat (n : Nat) : toZMod (ofNat K n) = n := by
  rw [toZMod, val_ofNat, ZMod.natCast_mod]

theorem toZMod_zero : toZMod (0 : Fp K) = 0 := Nat.cast_zero

theorem toZMod_one : toZMod (1 : Fp K) = 1 := Nat.cast_one

theorem toZMod_add (a b : Fp K) : toZMod (a + b) = toZMod a + toZMod b := by
  rw [toZMod, val_add, ZMod.natCast_mod, Nat.cast_add, toZMod, toZMod]

theorem toZMod_mul (a b : Fp K) : toZMod (a * b) = toZMod a * toZMod b := by
  rw [toZMod, val_mul, ZMod.natCast_mod, Nat.cast_mul, toZMod, toZMod]

theorem toZMod_neg (a : Fp K) : toZMod (-a) = -toZMod a := by
  rw [toZMod, val_neg, ZMod.natCast_mod, Nat.cast_sub (Nat.le_of_lt a.isLt), ZMod.natCast_self,
    zero_sub, toZMod]

theorem toZMod_sub (a b : Fp K) : toZMod (a - b) = toZMod a - toZMod b := by
  rw [toZMod, val_sub, ZMod.natCast_mod, Nat.cast_add, Nat.cast_sub (Nat.le_of_lt b.isLt),
    ZMod.natCast_self, zero_sub, ← sub_eq_add_neg, toZMod, toZMod]

theorem toZMod_pow (a : Fp K) (n : Nat) : toZMod (a ^ n) = toZMod a ^ n :=
  map_power toZMod toZMod_one toZMod_mul a n

/-! ## The ring -/

instance : SMul ℕ (Fp K) := ⟨fun n a => ofNat K n * a⟩

instance : SMul ℤ (Fp K) := ⟨fun n a => ofInt K n * a⟩

instance : IntCast (Fp K) := ⟨ofInt K⟩

theorem toZMod_ofInt (n : ℤ) : toZMod (ofInt K n) = n := by
  have hpos : (K.modulus : ℤ) ≠ 0 := by
    exact_mod_cast K.modulus_pos.ne'
  have hcast : ((n % (K.modulus : ℤ)).toNat : ℤ) = n % (K.modulus : ℤ) :=
    Int.toNat_of_nonneg (Int.emod_nonneg n hpos)
  rw [ofInt, toZMod_ofNat, ← Int.cast_natCast, hcast, ZMod.intCast_mod]

/-- The residues with the operations of the program. -/
instance : CommRing (Fp K) :=
  Function.Injective.commRing toZMod toZMod_injective toZMod_zero toZMod_one toZMod_add toZMod_mul
    toZMod_neg toZMod_sub
    (fun n a => by
      show toZMod (ofNat K n * a) = n • toZMod a
      rw [toZMod_mul, toZMod_ofNat, nsmul_eq_mul])
    (fun n a => by
      show toZMod (ofInt K n * a) = n • toZMod a
      rw [toZMod_mul, toZMod_ofInt, zsmul_eq_mul])
    toZMod_pow toZMod_ofNat toZMod_ofInt

instance : Nontrivial (Fp K) := ⟨0, 1, fun h => by simpa using congrArg Fp.val h⟩

/-- The residue of a number is zero exactly if the modulus divides it. -/
theorem natCast_eq_zero_iff (n : Nat) : (n : Fp K) = 0 ↔ K.modulus ∣ n := by
  rw [← toZMod_injective.eq_iff, toZMod_zero]
  show toZMod (ofNat K n) = 0 ↔ _
  rw [toZMod_ofNat, ZMod.natCast_eq_zero_iff]

theorem ofNat_eq_natCast (n : Nat) : ofNat K n = (n : Fp K) := rfl

/-- An element is the cast of its canonical integer. -/
theorem natCast_val (a : Fp K) : ((a.val : Nat) : Fp K) = a := ofNat_val a

/-! ## The field -/

theorem inverse?_eq_none_iff {a : Fp K} : a.inverse? = none ↔ a = 0 := by
  rw [inverse?]
  split <;> simp_all

section
variable [prime : Fact K.modulus.Prime]

theorem mul_inverseOrZero {a : Fp K} (h : a ≠ 0) : a * a.inverseOrZero = 1 := by
  have hz : toZMod a ≠ 0 := fun hz => h (toZMod_injective (hz.trans toZMod_zero.symm))
  apply toZMod_injective
  rw [inverseOrZero, if_neg h, toZMod_mul, toZMod_pow, toZMod_one, ← pow_succ']
  have hsub : K.modulus - 2 + 1 = K.modulus - 1 := by
    have := prime.out.two_le
    omega
  rw [hsub]
  exact ZMod.pow_card_sub_one_eq_one hz

/-- Fermat's little theorem for residues. -/
theorem pow_modulus_sub_one {a : Fp K} (h : a ≠ 0) : a ^ (K.modulus - 1) = 1 := by
  have hz : toZMod a ≠ 0 := fun hz => h (toZMod_injective (hz.trans toZMod_zero.symm))
  apply toZMod_injective
  rw [toZMod_pow, toZMod_one]
  exact ZMod.pow_card_sub_one_eq_one hz

/-- The residues modulo a prime form a field; the inverse is `inverseOrZero`. -/
instance : Field (Fp K) where
  inv := inverseOrZero
  exists_pair_ne := ⟨0, 1, zero_ne_one⟩
  mul_inv_cancel _ := mul_inverseOrZero
  inv_zero := if_pos rfl
  nnqsmul := _
  nnqsmul_def _ _ := rfl
  qsmul := _
  qsmul_def _ _ := rfl

theorem inverseOrZero_eq_inv (a : Fp K) : a.inverseOrZero = a⁻¹ := rfl

theorem inverse?_eq_some {a : Fp K} (h : a ≠ 0) : a.inverse? = some a⁻¹ := if_neg h

theorem inverse?_eq_some_iff {a b : Fp K} : a.inverse? = some b ↔ a ≠ 0 ∧ b = a⁻¹ := by
  by_cases h : a = 0
  · rw [inverse?_eq_none_iff.2 h]
    simp [h]
  · rw [inverse?_eq_some h]
    simp [h, eq_comm]

end

/-- The canonical integer fits into the canonical bytes. -/
theorem val_lt_pow_byteLength (a : Fp K) : a.val < 256 ^ K.byteLength := by
  have hbits : K.bitLength ≤ 8 * K.byteLength := by
    rw [PrimeField.byteLength]
    omega
  calc a.val < K.modulus := a.isLt
    _ < 2 ^ K.bitLength := Nat.lt_log2_self
    _ ≤ 2 ^ (8 * K.byteLength) := Nat.pow_le_pow_right (by decide) hbits
    _ = 256 ^ K.byteLength := Nat.pow_mul ..

end Fp

end Groth16
