import Groth16.Curve.Bn254.Fields
import Groth16.Curve.Groups
import Groth16.Field.Known

/-!
# The groups of BN254

Two curves with groups of the same prime order, the modulus of `bn254Scalar`.

* `G1`: the points of `y² = x³ + 3` over `Fq`, generated by `(1, 2)`.
* `G2`: a subgroup of the points of `y² = x³ + 3 / ξ` over `Fq2`.
-/

set_option autoImplicit false

namespace Groth16.Bn254

/-- The prime order of the groups. -/
def order : Nat := bn254Scalar.modulus

/-- A point over the base field. -/
structure G1 where
  /-- The point. -/
  point : Point Fq
  deriving DecidableEq

/-- A point over the field of degree two. -/
structure G2 where
  /-- The point. -/
  point : Point Fq2
  deriving DecidableEq

/-- The coefficient of the curve of `G1`. -/
def b1 : Fq := Fp.ofNat base 3

/-- The coefficient of the curve of `G2`. -/
def b2 : Fq2 := Fq2.xi.inverseOrZero.scale b1

/-- The point `(1, 2)`. -/
def generator1 : G1 := ⟨.affine 1 (1 + 1)⟩

/-- A point of the prime order on the curve of `G2`. -/
def generator2 : G2 :=
  let fq2 (a b : Nat) : Fq2 := ⟨Fp.ofNat base a, Fp.ofNat base b⟩
  ⟨.affine
    (fq2 10857046999023057135944570762232829481370756359578518086990519993285655852781
      11559732032986387107991004021392285783925812861821192530917403151452391805634)
    (fq2 8495653923123431417604973247489272438418190587263600148770280649306958101930
      4082367875863433681332203403145435568316851327593401208105741076214120093531)⟩

instance : ScalarGroup bn254Scalar G1 where
  decEq := inferInstance
  zero := ⟨.infinity⟩
  add p q := ⟨p.point.add q.point⟩
  neg p := ⟨p.point.neg⟩
  generator := generator1
  smul k p := ⟨p.point.multiple k.val⟩
  sumOfMultiples ps := ⟨Point.sumOfMultiples (ps.map fun p => (p.1.point, p.2.val))⟩

instance : ScalarGroup bn254Scalar G2 where
  decEq := inferInstance
  zero := ⟨.infinity⟩
  add p q := ⟨p.point.add q.point⟩
  neg p := ⟨p.point.neg⟩
  generator := generator2
  smul k p := ⟨p.point.multiple k.val⟩
  sumOfMultiples ps := ⟨Point.sumOfMultiples (ps.map fun p => (p.1.point, p.2.val))⟩

end Groth16.Bn254
