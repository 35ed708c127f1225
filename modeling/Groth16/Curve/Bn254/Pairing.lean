import Groth16.Curve.Bn254.Groups

/-!
# A pairing on BN254

The reduced Tate pairing. For a point `P` of `G1` a chain of doublings and additions computes
`order · P`, and the lines that the chain draws are evaluated at the image of a point `Q` of `G2` in
the field of degree twelve. The product of their values, raised to `(q¹² - 1) / order`, is the
pairing of `P` and `Q`.

Factors that lie in a proper subfield vanish in that power. So vertical lines are left out, and a
line may be scaled by any element of the base field, which saves all divisions.

* `Line.times`: the product with a line at the image of a point.
* `millerLoop`: the product of lines for a list of pairs, with shared squarings.
* `finalExponentiation`: the power.
-/

set_option autoImplicit false

namespace Groth16.Bn254

/-- The line `a + b · x + c · y = 0`. -/
structure Line where
  /-- The constant. -/
  a : Fq
  /-- The coefficient of `x`. -/
  b : Fq
  /-- The coefficient of `y`. -/
  c : Fq

/-- The product with the value at the image `(x · w², y · w³)` of a point `(x, y)` of `G2`. -/
def Line.times (l : Line) (f : Fq12) (x y : Fq2) : Fq12 :=
  f.mulLine l.a (x.scale l.b) (y.scale l.c)

/-- A pair with the multiple of its first point that the chain has reached. -/
structure Track where
  /-- The multiple. -/
  current : Jacobian Fq
  /-- The coordinates of the first point. -/
  px : Fq
  /-- The coordinates of the first point. -/
  py : Fq
  /-- The coordinates of the second point. -/
  qx : Fq2
  /-- The coordinates of the second point. -/
  qy : Fq2

namespace Track

/-- The tangent at the point that was reached. -/
def tangent (t : Track) : Line :=
  let p := t.current
  let zz := p.z * p.z
  let xx := p.x * p.x
  let xx3 := xx + xx + xx
  let yy := p.y * p.y
  let yz := p.y * p.z
  ⟨xx3 * p.x - (yy + yy), -(xx3 * zz), (yz + yz) * zz⟩

/-- The line through the point that was reached and the first point; none if it is vertical. -/
def chord? (t : Track) : Option Line :=
  let p := t.current
  let zz := p.z * p.z
  let h := t.px * zz - p.x
  if h = 0 then none
  else
    let r := t.py * (zz * p.z) - p.y
    let zh := p.z * h
    some ⟨r * t.px - zh * t.py, -r, zh⟩

/-- Doubles, and multiplies the value with the tangent. -/
def double (f : Fq12) (t : Track) : Fq12 × Track :=
  (t.tangent.times f t.qx t.qy, { t with current := t.current.double })

/-- Adds the first point, and multiplies the value with the line through both. -/
def add (f : Fq12) (t : Track) : Fq12 × Track :=
  let f := match t.chord? with
    | some l => l.times f t.qx t.qy
    | none => f
  (f, { t with current := t.current.addAffine t.px t.py })

end Track

/-- Moves every pair on. -/
def advance (move : Fq12 → Track → Fq12 × Track) : Fq12 → List Track → Fq12 × List Track
  | f, [] => (f, [])
  | f, t :: ts =>
    let (f, t) := move f t
    let (f, ts) := advance move f ts
    (f, t :: ts)

/-- The chain over the `n` lowest bits of the order, highest bit first. -/
def millerFrom : Nat → Fq12 → List Track → Fq12
  | 0, f, _ => f
  | n + 1, f, ts =>
    let (f, ts) := advance Track.double (f * f) ts
    let (f, ts) := if order.testBit n then advance Track.add f ts else (f, ts)
    millerFrom n f ts

/-- A pair of points as the chain starts on it; none if one of them is at infinity. -/
def track? : G1 × G2 → Option Track
  | (⟨.affine px py⟩, ⟨.affine qx qy⟩) => some ⟨⟨px, py, 1⟩, px, py, qx, qy⟩
  | _ => none

/-- The product of the lines of all pairs. -/
def millerLoop (ps : List (G1 × G2)) : Fq12 := millerFrom order.log2 1 (ps.filterMap track?)

/-- The number from which the primes of the curve are made: they are values of polynomials at it. -/
def parameter : Nat := 4965661367192848881

/-- The power `(q⁴ - q² + 1) / order` of an element whose conjugate is its inverse. The exponent is
`q³ + (6 t² + 1) q² + (1 - 12 t - 18 t² - 36 t³) q - (2 + 18 t + 30 t² + 36 t³)`, where `t` is the
parameter. -/
def hardPower (f : Fq12) : Fq12 :=
  let f1 := power f parameter
  let f2 := power f1 parameter
  let f3 := power f2 parameter
  let f2₆ := power f2 6
  let f1₆ := power f1 6
  let common := power f3 36 * power f2₆ 3 * power f1₆ 2
  let top := f.frobenius * f2₆ * f
  let second := (top.frobenius * common.conjugate * f).frobenius
  second * (common * power f2₆ 2 * f1₆ * (f * f)).conjugate

/-- The power `(q¹² - 1) / order`. -/
def finalExponentiation (f : Fq12) : Fq12 :=
  let f := f.conjugate * f.inverseOrZero
  hardPower (f.frobenius.frobenius * f)

instance : Pairing bn254Scalar G1 G2 Fq12 where
  decEq := inferInstance
  pairingProduct ps := finalExponentiation (millerLoop ps)

end Groth16.Bn254
