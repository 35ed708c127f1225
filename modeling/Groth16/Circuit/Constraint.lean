import Groth16.Circuit.LinearCombination

/-!
# Rank-1 constraints

A constraint is a triple of linear combinations. It holds on a vector where the product of the
first two has the value of the third.

* `Tag`: the operation that emitted a constraint.
* `Constraint.holds?`: the check on a vector that holds all wires the constraint mentions.
* `Unsatisfied`: a constraint that does not hold, as it is reported.
-/

set_option autoImplicit false

namespace Groth16

/-- The operation that emitted a constraint. -/
inductive Tag where
  /-- A product. -/
  | mul
  /-- An asserted equality. -/
  | assertEqual
  /-- An inverse. -/
  | inverse
  /-- A quotient. -/
  | division
  /-- An asserted bit. -/
  | boolean
  /-- A test for zero. -/
  | isZero
  /-- A choice between two values. -/
  | select
  /-- A decomposition into bits. -/
  | binary
  deriving DecidableEq, Repr

namespace Tag

/-- The name of the operation. -/
def name : Tag → String
  | .mul => "mul"
  | .assertEqual => "assert_is_equal"
  | .inverse => "inverse"
  | .division => "div"
  | .boolean => "assert_is_boolean"
  | .isZero => "is_zero"
  | .select => "select"
  | .binary => "to_binary"

/-- The byte that stands for the tag. -/
def code : Tag → UInt8
  | .mul => 0
  | .assertEqual => 1
  | .inverse => 2
  | .division => 3
  | .boolean => 4
  | .isZero => 5
  | .select => 6
  | .binary => 7

theorem code_injective {s t : Tag} (h : s.code = t.code) : s = t := by
  cases s <;> cases t <;> first | rfl | exact absurd h (by decide)

end Tag

/-- The equation `a · b = c`. -/
structure Constraint (K : PrimeField) where
  /-- The first factor. -/
  a : LinearCombination K
  /-- The second factor. -/
  b : LinearCombination K
  /-- The product. -/
  c : LinearCombination K
  /-- The operation that emitted the constraint. -/
  tag : Tag
  deriving DecidableEq

namespace Constraint

variable {K : PrimeField}

/-- The equation holds where wire `i` holds `z i`. -/
def Holds (r : Constraint K) (z : Nat → Fp K) : Prop := r.a.eval z * r.b.eval z = r.c.eval z

/-- The values of the three combinations on a vector. -/
def values? (r : Constraint K) (z : Array (Fp K)) : Option (Fp K × Fp K × Fp K) := do
  let a ← r.a.evaluate? z
  let b ← r.b.evaluate? z
  let c ← r.c.evaluate? z
  return (a, b, c)

/-- Whether the equation holds on a vector; none if a wire lies past its end. -/
def holds? (r : Constraint K) (z : Array (Fp K)) : Option Bool := do
  let (a, b, c) ← r.values? z
  return a * b == c

/-- The bytes of the constraint: the tag, then the three combinations. -/
def stream (r : Constraint K) : Bytes := r.tag.code :: r.a.stream ++ r.b.stream ++ r.c.stream

end Constraint

/-- A constraint that does not hold. -/
structure Unsatisfied where
  /-- The number of its row. -/
  index : Nat
  /-- The operation that emitted it. -/
  tag : Tag
  deriving DecidableEq

/-- The text of the report. -/
def Unsatisfied.message (u : Unsatisfied) : String :=
  s!"constraint #{u.index} ({u.tag.name}) is not satisfied"

end Groth16
