import Groth16.Circuit.LinearCombination

/-!
# Recipes for internal wires

Every internal wire comes with a recipe that computes it from wires before it. Replaying the
recipes in order turns the inputs into a full vector of wires.

* `Recipe`: how a wire is computed.
* `Recipe.solve?`: the value, where the recipe has one.
* `Hint`: a recipe together with the wire it fills and the constraint that is reported if there is
  no value.
-/

set_option autoImplicit false

namespace Groth16

/-- How a wire is computed. -/
inductive Recipe (K : PrimeField) where
  /-- The product of two values. -/
  | product (a b : LinearCombination K)
  /-- The inverse of a value; none for zero. -/
  | inverse (a : LinearCombination K)
  /-- The quotient of two values; none if the divisor is zero. -/
  | quotient (a b : LinearCombination K)
  /-- The inverse of a value, or zero for zero. -/
  | inverseOrZero (a : LinearCombination K)
  /-- One for zero, zero for anything else. -/
  | isZero (a : LinearCombination K)
  /-- A bit of the canonical integer of a value. -/
  | bit (a : LinearCombination K) (i : Nat)
  deriving DecidableEq

/-- One for true and zero for false. -/
def Fp.ofBool {K : PrimeField} (b : Bool) : Fp K := if b then 1 else 0

namespace Recipe

variable {K : PrimeField}

/-- The byte that stands for the kind of recipe. -/
def code : Recipe K → UInt8
  | .product .. => 0
  | .inverse .. => 1
  | .quotient .. => 2
  | .inverseOrZero .. => 3
  | .isZero .. => 4
  | .bit .. => 5

/-- The combinations that the recipe reads. -/
def operands : Recipe K → List (LinearCombination K)
  | .product a b | .quotient a b => [a, b]
  | .inverse a | .inverseOrZero a | .isZero a | .bit a _ => [a]

/-- The number of the bit, where the recipe takes one. -/
def bitIndex? : Recipe K → Option Nat
  | .bit _ i => some i
  | _ => none

/-- The value of the recipe on values of its operands; none where it has none. -/
def onValues? : Recipe K → (LinearCombination K → Fp K) → Option (Fp K)
  | .product a b, v => some (v a * v b)
  | .inverse a, v => (v a).inverse?
  | .quotient a b, v => (v b).inverse?.map fun i => v a * i
  | .inverseOrZero a, v => some (v a).inverseOrZero
  | .isZero a, v => some (.ofBool (v a = 0))
  | .bit a i, v => some (.ofBool ((v a).val.testBit i))

/-- Every operand has a value on the vector. -/
def readable (r : Recipe K) (z : Array (Fp K)) : Bool :=
  r.operands.all fun a => (a.evaluate? z).isSome

/-- The value of the recipe on a vector whose wires it can read. -/
def solve? (r : Recipe K) (z : Array (Fp K)) : Option (Fp K) :=
  r.onValues? fun a => (a.evaluate? z).getD 0

end Recipe

/-- A recipe, the wire it fills, and the row that is reported if it has no value. -/
structure Hint (K : PrimeField) where
  /-- The index of the wire. -/
  output : Nat
  /-- The number of the row. -/
  row : Nat
  /-- The recipe. -/
  recipe : Recipe K
  deriving DecidableEq

/-- The bytes of the hint: the wire, the row, the kind of recipe, the number of the bit if there is
one, and the operands. -/
def Hint.stream {K : PrimeField} (h : Hint K) : Bytes :=
  LinearCombination.word h.output ++ LinearCombination.word h.row ++ h.recipe.code ::
    ((h.recipe.bitIndex?.elim [] LinearCombination.word) ++
      h.recipe.operands.flatMap LinearCombination.stream)

end Groth16
