import Groth16.Field.Basic

/-!
# Groups and pairings

What the proof system asks of its groups. The operations are given by classes, so that keys, setup,
prover and verifier are generic in the curve; the laws are assumed only where they are needed.

* `ScalarGroup K G`: a group written additively, with multiples by elements of `K` and a generator.
* `Pairing K G₁ G₂ T`: products of pairings of points of two groups, in a target group `T`.
-/

set_option autoImplicit false

namespace Groth16

/-- A group of points, on which the elements of a prime field act. -/
class ScalarGroup (K : outParam PrimeField) (G : Type) extends Zero G, Add G, Neg G where
  /-- Equality of points is decidable. -/
  decEq : DecidableEq G
  /-- The generator. -/
  generator : G
  /-- The multiple of a point. -/
  smul : Fp K → G → G
  /-- The sum of multiples of points. -/
  sumOfMultiples : List (G × Fp K) → G

namespace ScalarGroup

variable {K : PrimeField} {G : Type} [ScalarGroup K G]

instance : DecidableEq G := decEq

instance : SMul (Fp K) G := ⟨smul⟩

end ScalarGroup

/-- Pairings of points of two groups. -/
class Pairing (K : outParam PrimeField) (G₁ G₂ : Type) (T : outParam Type) [ScalarGroup K G₁]
    [ScalarGroup K G₂] where
  /-- Equality in the target group is decidable. -/
  decEq : DecidableEq T
  /-- The product of the pairings of a list of pairs. -/
  pairingProduct : List (G₁ × G₂) → T

/-- The pairing of two points. -/
def pairing {K : PrimeField} {G₁ G₂ T : Type} [ScalarGroup K G₁] [ScalarGroup K G₂]
    [Pairing K G₁ G₂ T] (p : G₁) (q : G₂) : T :=
  Pairing.pairingProduct [(p, q)]

end Groth16
