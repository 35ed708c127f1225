import Groth16.Field.Basic

/-!
# Points of a curve `y² = x³ + b`

Points are held in affine coordinates, so that equal points are equal as data. Sums of multiples
are computed in Jacobian coordinates `(X, Y, Z)`, which stand for `x = X / Z²` and `y = Y / Z³` and
need a single inversion at the end.

* `Arithmetic F`: the field operations that the formulas use.
* `Point F`: the point at infinity, or a pair of coordinates.
* `Point.add`, `Point.neg`: the group law.
* `Point.sumOfMultiples`: the sum of natural multiples of points.

No coordinate of these formulas involves `b`.
-/

set_option autoImplicit false

namespace Groth16

/-- The operations of a field. -/
class Arithmetic (F : Type) extends Zero F, One F, Add F, Neg F, Sub F, Mul F where
  /-- Equality is decidable. -/
  decEq : DecidableEq F
  /-- The inverse of an element that is not zero, and zero for zero. -/
  inverseOrZero : F → F

instance {F : Type} [Arithmetic F] : DecidableEq F := Arithmetic.decEq

/-- A point of a curve. -/
inductive Point (F : Type) where
  /-- The point at infinity. -/
  | infinity
  /-- The point with the given coordinates. -/
  | affine (x y : F)
  deriving DecidableEq

/-- Jacobian coordinates. The point at infinity has `z = 0`. -/
structure Jacobian (F : Type) where
  /-- `x · z²`. -/
  x : F
  /-- `y · z³`. -/
  y : F
  /-- The common denominator. -/
  z : F

variable {F : Type} [Arithmetic F]

namespace Jacobian

/-- The point at infinity. -/
def infinity : Jacobian F := ⟨1, 1, 0⟩

/-- The sum of a point with itself. -/
def double (p : Jacobian F) : Jacobian F :=
  let a := p.x * p.x
  let b := p.y * p.y
  let c := b * b
  let s := p.x + b
  let d := s * s - a - c
  let d := d + d
  let e := a + a + a
  let x := e * e - (d + d)
  let c2 := c + c
  let c4 := c2 + c2
  let yz := p.y * p.z
  ⟨x, e * (d - x) - (c4 + c4), yz + yz⟩

/-- The sum with a point in affine coordinates. -/
def addAffine (p : Jacobian F) (x y : F) : Jacobian F :=
  if p.z = 0 then ⟨x, y, 1⟩
  else
    let zz := p.z * p.z
    let h := x * zz - p.x
    let r := y * (zz * p.z) - p.y
    if h = 0 then if r = 0 then p.double else infinity
    else
      let hh := h * h
      let hhh := hh * h
      let v := p.x * hh
      let x3 := r * r - hhh - (v + v)
      ⟨x3, r * (v - x3) - p.y * hhh, p.z * h⟩

/-- The sum with a point. -/
def addPoint (p : Jacobian F) : Point F → Jacobian F
  | .infinity => p
  | .affine x y => p.addAffine x y

/-- The point in affine coordinates. -/
def toPoint (p : Jacobian F) : Point F :=
  if p.z = 0 then .infinity
  else
    let i := Arithmetic.inverseOrZero p.z
    let ii := i * i
    .affine (p.x * ii) (p.y * (ii * i))

end Jacobian

namespace Point

/-- The point reflected at the `x` axis. -/
def neg : Point F → Point F
  | .infinity => .infinity
  | .affine x y => .affine x (-y)

/-- The third point on the line of slope `m` through `(x₁, y₁)` and a point at `x₂`, reflected. -/
def chord (m x₁ y₁ x₂ : F) : Point F :=
  let x := m * m - x₁ - x₂
  .affine x (m * (x₁ - x) - y₁)

/-- The sum of two points. -/
def add : Point F → Point F → Point F
  | .infinity, q => q
  | p, .infinity => p
  | .affine x₁ y₁, .affine x₂ y₂ =>
    if x₁ = x₂ then
      if y₁ = y₂ ∧ y₁ ≠ 0 then
        chord ((x₁ * x₁ + x₁ * x₁ + x₁ * x₁) * Arithmetic.inverseOrZero (y₁ + y₁)) x₁ y₁ x₂
      else .infinity
    else chord ((y₂ - y₁) * Arithmetic.inverseOrZero (x₂ - x₁)) x₁ y₁ x₂

/-- Adds every point whose multiplier has bit `i`. -/
def addWithBit (i : Nat) (acc : Jacobian F) (ps : List (Point F × Nat)) : Jacobian F :=
  ps.foldl (fun acc p => if p.2.testBit i then acc.addPoint p.1 else acc) acc

/-- The sum of multiples by the `n` lowest bits of the multipliers, highest bit first. -/
def sumOfBits (ps : List (Point F × Nat)) : Nat → Jacobian F → Jacobian F
  | 0, acc => acc
  | n + 1, acc => sumOfBits ps n (addWithBit n acc.double ps)

/-- The sum of natural multiples of points. -/
def sumOfMultiples (ps : List (Point F × Nat)) : Point F :=
  let bits := ps.foldl (fun n p => max n (p.2.log2 + 1)) 0
  (sumOfBits ps bits .infinity).toPoint

/-- A natural multiple of a point. -/
def multiple (n : Nat) (p : Point F) : Point F := sumOfMultiples [(p, n)]

end Point

end Groth16
