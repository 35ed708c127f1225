import Mathlib.Algebra.BigOperators.Group.List.Basic
import Mathlib.Algebra.Group.MinimalAxioms
import Mathlib.Algebra.Module.Defs
import Groth16.Curve.Groups
import Groth16.Proofs.Field.Laws

/-!
# Laws of groups and pairings

What the proof system relies on: that points form a group whose order is the modulus, with a
generator, that a sum of multiples is this sum, and that a pairing is bilinear and does not
degenerate.  The laws are stated as one states them for a curve, with the multiple by a residue as a
sum of so many points; that the residues act on the points as scalars of a module follows.

* `LawfulScalarGroup`, `LawfulPairing`: the laws.
* `ScalarGroup.smul_generator_injective`: a point is one multiple of the generator only.
* `pairing_smul_smul`: the multiples of two points are paired like their product.
* `pairing_smul_generator_inj`: the pairing tells multiples of the generator apart.
* `Logarithm`: points that are known by their discrete logarithms, for which the laws hold.
-/

set_option autoImplicit false

namespace Groth16

variable {K : PrimeField} {G G₁ G₂ T : Type}

/-! ## Groups -/

/-- The points are a group of which the generator generates all, and the multiple of every point by
the modulus is zero. -/
class LawfulScalarGroup (K : outParam PrimeField) (G : Type) [ScalarGroup K G] : Prop where
  /-- Addition is associative. -/
  add_assoc (p q r : G) : p + q + r = p + (q + r)
  /-- Zero is neutral. -/
  zero_add (p : G) : 0 + p = p
  /-- A point and its negative add up to zero. -/
  neg_add_cancel (p : G) : -p + p = 0
  /-- The multiple by a residue is the sum of so many points. -/
  smul_eq_nsmul (a : Fp K) (p : G) : a • p = nsmulRec a.val p
  /-- The sum of as many equal points as the modulus says is zero. -/
  modulus_nsmul (p : G) : nsmulRec K.modulus p = 0
  /-- Every point is a multiple of the generator. -/
  exists_smul_generator (p : G) : ∃ a : Fp K, a • (ScalarGroup.generator : G) = p
  /-- The generator is not zero. -/
  generator_ne_zero : (ScalarGroup.generator : G) ≠ 0
  /-- A sum of multiples is this sum. -/
  sumOfMultiples_eq (xs : List (G × Fp K)) :
    ScalarGroup.sumOfMultiples xs = (xs.map fun x => x.2 • x.1).sum

namespace ScalarGroup

section
variable [ScalarGroup K G] [lawful : LawfulScalarGroup K G]

instance (priority := low) : AddGroup G :=
  .ofLeftAxioms lawful.add_assoc lawful.zero_add lawful.neg_add_cancel

theorem smul_eq_val_nsmul (a : Fp K) (p : G) : a • p = a.val • p := lawful.smul_eq_nsmul a p

theorem modulus_nsmul_eq_zero (p : G) : K.modulus • p = 0 := lawful.modulus_nsmul p

/-- Only the residue of a multiplicity counts. -/
theorem mod_nsmul (n : Nat) (p : G) : (n % K.modulus) • p = n • p := by
  have hmultiple : (K.modulus * (n / K.modulus)) • p = 0 := by
    rw [mul_comm, mul_nsmul', modulus_nsmul_eq_zero, nsmul_zero]
  calc (n % K.modulus) • p = (n % K.modulus) • p + (K.modulus * (n / K.modulus)) • p := by
        rw [hmultiple, add_zero]
    _ = n • p := by rw [← add_nsmul, Nat.mod_add_div]

instance (priority := low) : AddCommGroup G where
  add_comm p q := by
    obtain ⟨a, rfl⟩ := lawful.exists_smul_generator p
    obtain ⟨b, rfl⟩ := lawful.exists_smul_generator q
    rw [smul_eq_val_nsmul, smul_eq_val_nsmul, ← add_nsmul, ← add_nsmul, add_comm]

instance (priority := low) : Module (Fp K) G where
  one_smul p := by rw [smul_eq_val_nsmul, Fp.val_one, one_nsmul]
  mul_smul a b p := by
    rw [smul_eq_val_nsmul, smul_eq_val_nsmul, smul_eq_val_nsmul, Fp.val_mul, mod_nsmul, mul_comm,
      mul_nsmul]
  smul_zero a := by rw [smul_eq_val_nsmul, nsmul_zero]
  smul_add a p q := by
    rw [smul_eq_val_nsmul, smul_eq_val_nsmul, smul_eq_val_nsmul, nsmul_add]
  add_smul a b p := by
    rw [smul_eq_val_nsmul, smul_eq_val_nsmul, smul_eq_val_nsmul, Fp.val_add, mod_nsmul, add_nsmul]
  zero_smul p := by rw [smul_eq_val_nsmul, Fp.val_zero, zero_nsmul]

end

section
variable [Fact K.modulus.Prime] [ScalarGroup K G] [lawful : LawfulScalarGroup K G]

/-- A multiple of the generator is zero for the scalar zero only. -/
theorem smul_generator_eq_zero_iff {a : Fp K} : a • (generator : G) = 0 ↔ a = 0 := by
  constructor
  · intro h
    by_contra ha
    have hone : a⁻¹ • a • (generator : G) = generator := inv_smul_smul₀ ha generator
    rw [h, smul_zero] at hone
    exact lawful.generator_ne_zero hone.symm
  · rintro rfl
    exact zero_smul _ _

/-- A point is one multiple of the generator only. -/
theorem smul_generator_injective : Function.Injective fun a : Fp K => a • (generator : G) := by
  intro a b h
  have hsub : (a - b) • (generator : G) = 0 := by
    rw [sub_smul]
    exact sub_eq_zero.2 h
  exact sub_eq_zero.1 (smul_generator_eq_zero_iff.1 hsub)

end

end ScalarGroup

/-! ## Pairings -/

/-- A product of pairings is this product, pairings are additive in both points, and the pairing of
the generators is not one. -/
class LawfulPairing (K : outParam PrimeField) (G₁ G₂ : Type) (T : outParam Type) [ScalarGroup K G₁]
    [ScalarGroup K G₂] [Pairing K G₁ G₂ T] [CommGroup T] : Prop where
  /-- A product of pairings is this product. -/
  pairingProduct_eq (xs : List (G₁ × G₂)) :
    Pairing.pairingProduct xs = (xs.map fun x => pairing x.1 x.2).prod
  /-- Additive in the first point. -/
  add_left (p p' : G₁) (q : G₂) : pairing (p + p') q = pairing p q * pairing p' q
  /-- Additive in the second point. -/
  add_right (p : G₁) (q q' : G₂) : pairing p (q + q') = pairing p q * pairing p q'
  /-- The pairing does not degenerate. -/
  generator_ne_one :
    pairing (ScalarGroup.generator : G₁) (ScalarGroup.generator : G₂) ≠ 1

section
variable [ScalarGroup K G₁] [ScalarGroup K G₂] [Pairing K G₁ G₂ T] [CommGroup T]
  [left : LawfulScalarGroup K G₁] [right : LawfulScalarGroup K G₂]
  [lawful : LawfulPairing K G₁ G₂ T]

omit right in
theorem pairing_zero_left (q : G₂) : pairing (0 : G₁) q = 1 := by
  have h := lawful.add_left 0 0 q
  rwa [add_zero, left_eq_mul] at h

omit left in
theorem pairing_zero_right (p : G₁) : pairing p (0 : G₂) = 1 := by
  have h := lawful.add_right p 0 0
  rwa [add_zero, left_eq_mul] at h

omit left in
/-- The pairing with a negative is the inverse. -/
theorem pairing_neg_right (p : G₁) (q : G₂) : pairing p (-q) = (pairing p q)⁻¹ := by
  refine eq_inv_of_mul_eq_one_right ?_
  rw [← lawful.add_right, add_neg_cancel, pairing_zero_right]

omit right in
theorem pairing_nsmul_left (n : Nat) (p : G₁) (q : G₂) : pairing (n • p) q = pairing p q ^ n := by
  induction n with
  | zero => rw [zero_nsmul, pairing_zero_left, pow_zero]
  | succ n ih => rw [succ_nsmul, lawful.add_left, ih, pow_succ]

omit left in
theorem pairing_nsmul_right (n : Nat) (p : G₁) (q : G₂) : pairing p (n • q) = pairing p q ^ n := by
  induction n with
  | zero => rw [zero_nsmul, pairing_zero_right, pow_zero]
  | succ n ih => rw [succ_nsmul, lawful.add_right, ih, pow_succ]

/-- The multiples of two points are paired like their product. -/
theorem pairing_smul_smul (a b : Fp K) (p : G₁) (q : G₂) :
    pairing (a • p) (b • q) = pairing ((a * b) • p) q := by
  have hmove : pairing (a • p) (b • q) = pairing (b • a • p) q := by
    rw [ScalarGroup.smul_eq_val_nsmul b q, pairing_nsmul_right,
      ScalarGroup.smul_eq_val_nsmul b (a • p), pairing_nsmul_left]
  rw [hmove, ← mul_smul, mul_comm]

omit right in
/-- What a multiple of the one generator is paired to with the other tells the multiple. -/
theorem pairing_smul_generator_inj [Fact K.modulus.Prime] {a b : Fp K} :
    pairing (a • (ScalarGroup.generator : G₁)) (ScalarGroup.generator : G₂) =
      pairing (b • (ScalarGroup.generator : G₁)) (ScalarGroup.generator : G₂) ↔ a = b := by
  constructor
  · intro h
    by_contra hne
    have hsub : a - b ≠ 0 := sub_ne_zero.2 hne
    have hone : pairing ((a - b) • (ScalarGroup.generator : G₁))
        (ScalarGroup.generator : G₂) = 1 := by
      have hsplit := lawful.add_left ((a - b) • ScalarGroup.generator) (b • ScalarGroup.generator)
        ScalarGroup.generator
      rwa [← add_smul, sub_add_cancel, h, right_eq_mul] at hsplit
    refine lawful.generator_ne_one ?_
    have hback : (ScalarGroup.generator : G₁) = (a - b)⁻¹ • (a - b) • ScalarGroup.generator :=
      (inv_smul_smul₀ hsub _).symm
    rw [hback, ScalarGroup.smul_eq_val_nsmul (a - b)⁻¹, pairing_nsmul_left, hone, one_pow]
  · rintro rfl
    rfl

end

/-! ## Discrete logarithms -/

/-- A point that is known by its discrete logarithm. -/
structure Logarithm (K : PrimeField) where
  /-- The multiple of the generator that the point is. -/
  log : Fp K
  deriving DecidableEq

namespace Logarithm

instance : ScalarGroup K (Logarithm K) where
  zero := ⟨0⟩
  add p q := ⟨p.log + q.log⟩
  neg p := ⟨-p.log⟩
  decEq := inferInstance
  generator := ⟨1⟩
  smul a p := ⟨a * p.log⟩
  sumOfMultiples xs := ⟨(xs.map fun x => x.2 * x.1.log).sum⟩

instance : Pairing K (Logarithm K) (Logarithm K) (Multiplicative (Fp K)) where
  decEq := inferInstance
  pairingProduct xs := .ofAdd (xs.map fun x => x.1.log * x.2.log).sum

theorem nsmulRec_eq (n : Nat) (p : Logarithm K) : nsmulRec n p = ⟨(n : Fp K) * p.log⟩ := by
  induction n with
  | zero =>
    rw [Nat.cast_zero, zero_mul]
    rfl
  | succ n ih =>
    rw [nsmulRec, ih, Nat.cast_succ, add_mul, one_mul]
    rfl

/-- Known by their logarithms, points satisfy the laws. -/
instance : LawfulScalarGroup K (Logarithm K) where
  add_assoc _ _ _ := congrArg Logarithm.mk (add_assoc _ _ _)
  zero_add _ := congrArg Logarithm.mk (zero_add _)
  neg_add_cancel _ := congrArg Logarithm.mk (neg_add_cancel _)
  smul_eq_nsmul a p := by
    rw [nsmulRec_eq, Fp.natCast_val]
    rfl
  modulus_nsmul p := by
    rw [nsmulRec_eq, (Fp.natCast_eq_zero_iff K.modulus).2 dvd_rfl, zero_mul]
    rfl
  exists_smul_generator p := ⟨p.log, congrArg Logarithm.mk (mul_one _)⟩
  generator_ne_zero h := one_ne_zero (congrArg Logarithm.log h)
  sumOfMultiples_eq xs := by
    induction xs with
    | nil => rfl
    | cons x xs ih =>
      rw [List.map_cons, List.sum_cons, ← ih]
      exact congrArg Logarithm.mk List.sum_cons

theorem pairing_eq (p q : Logarithm K) : pairing p q = Multiplicative.ofAdd (p.log * q.log) := by
  rw [pairing]
  exact congrArg Multiplicative.ofAdd (add_zero _)

/-- Known by their logarithms, points are paired by the product. -/
instance : LawfulPairing K (Logarithm K) (Logarithm K) (Multiplicative (Fp K)) where
  pairingProduct_eq xs := by
    induction xs with
    | nil => rfl
    | cons x xs ih =>
      rw [List.map_cons, List.prod_cons, ← ih, pairing_eq]
      exact congrArg Multiplicative.ofAdd List.sum_cons
  add_left p p' q := by
    rw [pairing_eq, pairing_eq, pairing_eq]
    exact congrArg Multiplicative.ofAdd (add_mul _ _ _)
  add_right p q q' := by
    rw [pairing_eq, pairing_eq, pairing_eq]
    exact congrArg Multiplicative.ofAdd (mul_add _ _ _)
  generator_ne_one h := by
    rw [pairing_eq] at h
    exact one_ne_zero ((mul_one (1 : Fp K)).symm.trans (congrArg Multiplicative.toAdd h))

end Logarithm

end Groth16
