import Groth16.Curve.Weierstrass

/-!
# The coordinate fields of BN254

The base field and its extensions of degree 2, 6 and 12.

* `Fq`: the residues modulo the prime `q`.
* `Fq2 = Fq[u] / (u² + 1)`, with `ξ = 9 + u`.
* `Fq6 = Fq2[v] / (v³ - ξ)`.
* `Fq12 = Fq6[w] / (w² - v)`.
* `Fq.sqrt?`, `Fq2.sqrt?`: square roots.
-/

set_option autoImplicit false

namespace Groth16.Bn254

/-- The base field. -/
def base : PrimeField where
  modulus := 21888242871839275222246405745257275088696311157297823662689037894645226208583
  generator := 3
  twoAdicity := 1

/-- An element of the base field. -/
abbrev Fq := Fp base

instance : Arithmetic Fq where
  decEq := inferInstance
  inverseOrZero := Fp.inverseOrZero

/-- A square root, if there is one. The prime is three modulo four, so a power gives it. -/
def Fq.sqrt? (a : Fq) : Option Fq :=
  let r := a ^ ((base.modulus + 1) / 4)
  if r * r = a then some r else none

/-! ## Degree 2 -/

/-- `c0 + c1 · u` with `u² = -1`. -/
structure Fq2 where
  /-- The coefficient of one. -/
  c0 : Fq
  /-- The coefficient of `u`. -/
  c1 : Fq
  deriving DecidableEq

namespace Fq2

instance : Zero Fq2 := ⟨⟨0, 0⟩⟩
instance : One Fq2 := ⟨⟨1, 0⟩⟩
instance : Add Fq2 := ⟨fun a b => ⟨a.c0 + b.c0, a.c1 + b.c1⟩⟩
instance : Neg Fq2 := ⟨fun a => ⟨-a.c0, -a.c1⟩⟩
instance : Sub Fq2 := ⟨fun a b => ⟨a.c0 - b.c0, a.c1 - b.c1⟩⟩

/-- The sum of two products, reduced once. -/
def sumOfProducts (a b c d : Nat) : Fq := Fp.ofNat base (a * b + c * d)

instance : Mul Fq2 := ⟨fun a b =>
  ⟨sumOfProducts a.c0.val b.c0.val (base.modulus - a.c1.val) b.c1.val,
    sumOfProducts a.c0.val b.c1.val a.c1.val b.c0.val⟩⟩

/-- The product with an element of the base field. -/
def scale (a : Fq2) (k : Fq) : Fq2 := ⟨a.c0 * k, a.c1 * k⟩

/-- The power `q`: `u` becomes `-u`. -/
def conjugate (a : Fq2) : Fq2 := ⟨a.c0, -a.c1⟩

/-- The element `ξ = 9 + u`. -/
def xi : Fq2 := ⟨Fp.ofNat base 9, 1⟩

/-- The product with `ξ`. -/
def mulXi (a : Fq2) : Fq2 :=
  let nine := Fp.ofNat base 9
  ⟨nine * a.c0 - a.c1, a.c0 + nine * a.c1⟩

/-- The inverse of an element that is not zero, and zero for zero. -/
def inverseOrZero (a : Fq2) : Fq2 :=
  let i := (a.c0 * a.c0 + a.c1 * a.c1).inverseOrZero
  ⟨a.c0 * i, -(a.c1 * i)⟩

instance : Arithmetic Fq2 where
  decEq := inferInstance
  inverseOrZero := inverseOrZero

/-- A square root of an element of the base field. Of a number and its negative one is a square in
the base field, and `-1` has the root `u`. -/
def sqrtOfBase? (a : Fq) : Option Fq2 :=
  match a.sqrt? with
  | some r => some ⟨r, 0⟩
  | none => (-a).sqrt?.map fun r => ⟨0, r⟩

/-- A square root whose first coefficient has the square `half`, if there is one. The candidate is
checked before it is given. -/
def sqrtFromHalf? (a : Fq2) (half : Fq) : Option Fq2 := do
  let x ← half.sqrt?
  let r : Fq2 := ⟨x, a.c1 * (x + x).inverseOrZero⟩
  if r * r = a then some r else none

/-- A square root, if there is one. -/
def sqrt? (a : Fq2) : Option Fq2 :=
  if a.c1 = 0 then sqrtOfBase? a.c0
  else do
    let norm ← (a.c0 * a.c0 + a.c1 * a.c1).sqrt?
    let half := (1 + 1 : Fq).inverseOrZero
    match sqrtFromHalf? a ((a.c0 + norm) * half) with
    | some r => some r
    | none => sqrtFromHalf? a ((a.c0 - norm) * half)

end Fq2

/-! ## Degree 6 -/

/-- `c0 + c1 · v + c2 · v²` with `v³ = ξ`. -/
structure Fq6 where
  /-- The coefficient of one. -/
  c0 : Fq2
  /-- The coefficient of `v`. -/
  c1 : Fq2
  /-- The coefficient of `v²`. -/
  c2 : Fq2
  deriving DecidableEq

namespace Fq6

instance : Zero Fq6 := ⟨⟨0, 0, 0⟩⟩
instance : One Fq6 := ⟨⟨1, 0, 0⟩⟩
instance : Add Fq6 := ⟨fun a b => ⟨a.c0 + b.c0, a.c1 + b.c1, a.c2 + b.c2⟩⟩
instance : Neg Fq6 := ⟨fun a => ⟨-a.c0, -a.c1, -a.c2⟩⟩
instance : Sub Fq6 := ⟨fun a b => ⟨a.c0 - b.c0, a.c1 - b.c1, a.c2 - b.c2⟩⟩
instance : Mul Fq6 := ⟨fun a b =>
  let t0 := a.c0 * b.c0
  let t1 := a.c1 * b.c1
  let t2 := a.c2 * b.c2
  ⟨((a.c1 + a.c2) * (b.c1 + b.c2) - t1 - t2).mulXi + t0,
    (a.c0 + a.c1) * (b.c0 + b.c1) - t0 - t1 + t2.mulXi,
    (a.c0 + a.c2) * (b.c0 + b.c2) - t0 - t2 + t1⟩⟩

/-- The product with `v`. -/
def mulV (a : Fq6) : Fq6 := ⟨a.c2.mulXi, a.c0, a.c1⟩

/-- The product with `a + b · v`. -/
def mulLinear (x : Fq6) (a : Fq) (b : Fq2) : Fq6 :=
  ⟨x.c0.scale a + (x.c2 * b).mulXi, x.c0 * b + x.c1.scale a, x.c1 * b + x.c2.scale a⟩

/-- The product with an element of degree two. -/
def scale (x : Fq6) (k : Fq2) : Fq6 := ⟨x.c0 * k, x.c1 * k, x.c2 * k⟩

/-- The inverse of an element that is not zero, and zero for zero. -/
def inverseOrZero (a : Fq6) : Fq6 :=
  let x := a.c0 * a.c0 - (a.c1 * a.c2).mulXi
  let y := (a.c2 * a.c2).mulXi - a.c0 * a.c1
  let z := a.c1 * a.c1 - a.c0 * a.c2
  let i := (a.c0 * x + (a.c2 * y + a.c1 * z).mulXi).inverseOrZero
  ⟨x * i, y * i, z * i⟩

end Fq6

/-! ## Degree 12 -/

/-- `c0 + c1 · w` with `w² = v`. -/
structure Fq12 where
  /-- The coefficient of one. -/
  c0 : Fq6
  /-- The coefficient of `w`. -/
  c1 : Fq6
  deriving DecidableEq

namespace Fq12

instance : One Fq12 := ⟨⟨1, 0⟩⟩
instance : Mul Fq12 := ⟨fun a b =>
  let t0 := a.c0 * b.c0
  let t1 := a.c1 * b.c1
  ⟨t0 + t1.mulV, (a.c0 + a.c1) * (b.c0 + b.c1) - t0 - t1⟩⟩

/-- The power `q ^ 6`: `w` becomes `-w`. -/
def conjugate (a : Fq12) : Fq12 := ⟨a.c0, -a.c1⟩

/-- The inverse of an element that is not zero, and zero for zero. -/
def inverseOrZero (a : Fq12) : Fq12 :=
  let i := (a.c0 * a.c0 - (a.c1 * a.c1).mulV).inverseOrZero
  ⟨a.c0 * i, -(a.c1 * i)⟩

/-- The product with `a + b · v + c · v · w`. -/
def mulLine (x : Fq12) (a : Fq) (b c : Fq2) : Fq12 :=
  let t0 := x.c0.mulLinear a b
  let t1 := (x.c1.scale c).mulV
  ⟨t0 + t1.mulV, (x.c0 + x.c1).mulLinear a (b + c) - t0 - t1⟩

/-- The power `q - 1` of `w`. -/
def twist : Fq2 := power Fq2.xi ((base.modulus - 1) / 6)

/-- The power `q`: coefficients become their conjugates, and that of `w ^ i` is multiplied by the
power `i` of `twist`. -/
def frobenius (a : Fq12) : Fq12 :=
  let t1 := twist
  let t2 := t1 * t1
  let t3 := t2 * t1
  let t4 := t3 * t1
  let t5 := t4 * t1
  ⟨⟨a.c0.c0.conjugate, a.c0.c1.conjugate * t2, a.c0.c2.conjugate * t4⟩,
    ⟨a.c1.c0.conjugate * t1, a.c1.c1.conjugate * t3, a.c1.c2.conjugate * t5⟩⟩

end Fq12

end Groth16.Bn254
