import Mathlib.Tactic.NormNum.Prime
import Groth16.Field.Known
import Groth16.Proofs.Field.Primality

/-!
# The scalar fields of two pairing curves are fields

The scalars of BN254 and of BLS12-381 are a field because the order of the groups is prime, which is
certified from the factors of the number before it.  The same certificate shows that the generator
has the full order, so that both fields have the roots of unity that they are said to have.

* `prime_bn254Scalar`, `prime_bls12381Scalar`: the moduli of the scalar fields are prime.
* `hasRoots_bn254Scalar`, `hasRoots_bls12381Scalar`: they have roots of unity for the powers of two up
  to `2 ^ 28` and `2 ^ 32`.
-/

set_option autoImplicit false

namespace Groth16

/-! ## BN254 -/

/-- The primes below `2 ^ 14` that the certificate of the order goes back to. -/
def scalarSmallFactors : List Nat :=
  [2, 3, 5, 7, 11, 13, 19, 29, 31, 47, 83, 107, 223, 229, 379, 449, 661, 823, 853, 983, 1637, 3691,
    4999, 11003]

/-- The order of the groups, after the large primes that it goes back to. -/
def scalarUnitOrders : List UnitOrder :=
  [⟨⟨20963, 2, 1, Nat.one_lt_succ_succ _⟩, [(2, 1), (47, 1), (223, 1)]⟩,
    ⟨⟨41927, 5, 1, Nat.one_lt_succ_succ _⟩, [(2, 1), (20963, 1)]⟩,
    ⟨⟨93001, 14, 3, Nat.one_lt_succ_succ _⟩, [(2, 3), (3, 1), (5, 3), (31, 1)]⟩,
    ⟨⟨237073, 15, 4, Nat.one_lt_succ_succ _⟩, [(2, 4), (3, 1), (11, 1), (449, 1)]⟩,
    ⟨⟨1593227, 2, 1, Nat.one_lt_succ_succ _⟩, [(2, 1), (19, 1), (41927, 1)]⟩,
    ⟨⟨405928799, 22, 1, Nat.one_lt_succ_succ _⟩, [(2, 1), (11, 1), (3691, 1), (4999, 1)]⟩,
    ⟨⟨639533339, 2, 1, Nat.one_lt_succ_succ _⟩, [(2, 1), (229, 1), (853, 1), (1637, 1)]⟩,
    ⟨⟨12048837557, 2, 2, Nat.one_lt_succ_succ _⟩, [(2, 2), (7, 2), (661, 1), (93001, 1)]⟩,
    ⟨⟨5156902474397, 2, 2, Nat.one_lt_succ_succ _⟩, [(2, 2), (107, 1), (12048837557, 1)]⟩,
    ⟨⟨1670836401704629, 2, 2, Nat.one_lt_succ_succ _⟩, [(2, 2), (3, 4), (5156902474397, 1)]⟩,
    ⟨⟨65865678001877903, 5, 1, Nat.one_lt_succ_succ _⟩,
      [(2, 1), (83, 1), (379, 1), (1637, 1), (639533339, 1)]⟩,
    ⟨⟨13818364434197438864469338081, 3, 5, Nat.one_lt_succ_succ _⟩,
      [(2, 5), (5, 1), (823, 1), (1593227, 1), (65865678001877903, 1)]⟩,
    ⟨bn254Scalar, [(2, 28), (3, 2), (13, 1), (29, 1), (983, 1), (11003, 1), (237073, 1),
      (405928799, 1), (1670836401704629, 1), (13818364434197438864469338081, 1)]⟩]

theorem certifiedFrom_scalarUnitOrders : CertifiedFrom scalarSmallFactors scalarUnitOrders := by
  decide +kernel

theorem prime_of_mem_scalarSmallFactors : ∀ p ∈ scalarSmallFactors, p.Prime := by
  simp only [scalarSmallFactors, List.forall_mem_cons]
  norm_num

/-- The generator of the scalar field of BN254 has the full order. -/
theorem hasRoots_bn254Scalar : bn254Scalar.HasRoots := by
  have hlast : (scalarUnitOrders.getLast (by simp [scalarUnitOrders])).field = bn254Scalar := rfl
  rw [← hlast]
  exact certifiedFrom_scalarUnitOrders.hasRoots prime_of_mem_scalarSmallFactors
    (List.getLast_mem _) (by decide) (by decide)

theorem prime_bn254Scalar : bn254Scalar.modulus.Prime := hasRoots_bn254Scalar.prime

instance : Fact bn254Scalar.modulus.Prime := ⟨prime_bn254Scalar⟩

/-! ## BLS12-381 -/

/-- The primes below `2 ^ 14` that the certificate of the order goes back to. -/
def blsSmallFactors : List Nat :=
  [2, 3, 5, 7, 11, 13, 17, 19, 23, 29, 43, 47, 79, 97, 359, 449, 523, 1607, 10177]

/-- The order of the groups, after the large primes that it goes back to. -/
def blsUnitOrders : List UnitOrder :=
  [⟨⟨18329, 3, 3, Nat.one_lt_succ_succ _⟩, [(2, 3), (29, 1), (79, 1)]⟩,
    ⟨⟨20921, 3, 3, Nat.one_lt_succ_succ _⟩, [(2, 3), (5, 1), (523, 1)]⟩,
    ⟨⟨47737, 5, 3, Nat.one_lt_succ_succ _⟩, [(2, 3), (3, 3), (13, 1), (17, 1)]⟩,
    ⟨⟨110573, 3, 2, Nat.one_lt_succ_succ _⟩, [(2, 2), (7, 1), (11, 1), (359, 1)]⟩,
    ⟨⟨125527, 5, 1, Nat.one_lt_succ_succ _⟩, [(2, 1), (3, 1), (20921, 1)]⟩,
    ⟨⟨609743, 5, 1, Nat.one_lt_succ_succ _⟩, [(2, 1), (7, 1), (97, 1), (449, 1)]⟩,
    ⟨⟨859267, 2, 1, Nat.one_lt_succ_succ _⟩, [(2, 1), (3, 2), (47737, 1)]⟩,
    ⟨⟨906349, 2, 2, Nat.one_lt_succ_succ _⟩, [(2, 2), (3, 1), (47, 1), (1607, 1)]⟩,
    ⟨⟨2508409, 11, 3, Nat.one_lt_succ_succ _⟩, [(2, 3), (3, 4), (7, 2), (79, 1)]⟩,
    ⟨⟨2529403, 2, 1, Nat.one_lt_succ_succ _⟩, [(2, 1), (3, 1), (23, 1), (18329, 1)]⟩,
    ⟨⟨2653753, 5, 3, Nat.one_lt_succ_succ _⟩, [(2, 3), (3, 1), (110573, 1)]⟩,
    ⟨⟨52437899, 2, 1, Nat.one_lt_succ_succ _⟩, [(2, 1), (43, 1), (609743, 1)]⟩,
    ⟨⟨63690073, 7, 3, Nat.one_lt_succ_succ _⟩, [(2, 3), (3, 1), (2653753, 1)]⟩,
    ⟨⟨254760293, 2, 2, Nat.one_lt_succ_succ _⟩, [(2, 2), (63690073, 1)]⟩,
    ⟨bls12381Scalar, [(2, 32), (3, 1), (11, 1), (19, 1), (10177, 1), (125527, 1), (859267, 1),
      (906349, 2), (2508409, 1), (2529403, 1), (52437899, 1), (254760293, 2)]⟩]

theorem certifiedFrom_blsUnitOrders : CertifiedFrom blsSmallFactors blsUnitOrders := by
  decide +kernel

theorem prime_of_mem_blsSmallFactors : ∀ p ∈ blsSmallFactors, p.Prime := by
  simp only [blsSmallFactors, List.forall_mem_cons]
  norm_num

/-- The generator of the scalar field of BLS12-381 has the full order. -/
theorem hasRoots_bls12381Scalar : bls12381Scalar.HasRoots := by
  have hlast : (blsUnitOrders.getLast (by simp [blsUnitOrders])).field = bls12381Scalar := rfl
  rw [← hlast]
  exact certifiedFrom_blsUnitOrders.hasRoots prime_of_mem_blsSmallFactors
    (List.getLast_mem _) (by decide) (by decide)

theorem prime_bls12381Scalar : bls12381Scalar.modulus.Prime := hasRoots_bls12381Scalar.prime

instance : Fact bls12381Scalar.modulus.Prime := ⟨prime_bls12381Scalar⟩

end Groth16
