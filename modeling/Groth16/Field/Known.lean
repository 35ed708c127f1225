import Groth16.Field.Basic

/-!
# The scalar fields of two pairing curves

* `bn254Scalar`: the prime order of the BN254 groups; two-adicity 28, generator 5.
* `bls12381Scalar`: the prime order of the BLS12-381 groups; two-adicity 32, generator 7.
-/

set_option autoImplicit false

namespace Groth16

/-- The scalar field of BN254. -/
def bn254Scalar : PrimeField where
  modulus := 21888242871839275222246405745257275088548364400416034343698204186575808495617
  generator := 5
  twoAdicity := 28

/-- The scalar field of BLS12-381. -/
def bls12381Scalar : PrimeField where
  modulus := 0x73eda753299d7d483339d80809a1d80553bda402fffe5bfeffffffff00000001
  generator := 7
  twoAdicity := 32

end Groth16
