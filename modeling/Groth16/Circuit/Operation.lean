import Groth16.Circuit.Builder

/-!
# Operations as data

The operations of the builder as values, so that a circuit is a list of them. An operand is a
linear combination over the wires that are there when the operation runs.

* `Operation`: one operation with its operands.
* `Operation.run`: what it does to a builder.
* `Operation.runAll`: what a list of operations does.
-/

set_option autoImplicit false

namespace Groth16

/-- One operation of the builder. -/
inductive Operation (K : PrimeField) where
  /-- A constant. -/
  | constant (k : Fp K)
  /-- The sum of two values. -/
  | add (a b : LinearCombination K)
  /-- The difference of two values. -/
  | sub (a b : LinearCombination K)
  /-- The negative of a value. -/
  | neg (a : LinearCombination K)
  /-- A multiple of a value. -/
  | scale (a : LinearCombination K) (k : Fp K)
  /-- The sum of a list of values. -/
  | sum (as : List (LinearCombination K))
  /-- The product of two values. -/
  | mul (a b : LinearCombination K)
  /-- The product of a list of values. -/
  | mulMany (as : List (LinearCombination K))
  /-- An asserted equality. -/
  | assertEqual (a b : LinearCombination K)
  /-- The inverse of a value. -/
  | inverse (a : LinearCombination K)
  /-- The quotient of two values. -/
  | div (a b : LinearCombination K)
  /-- An asserted bit. -/
  | assertBoolean (a : LinearCombination K)
  /-- A choice by a bit. -/
  | select (bit x y : LinearCombination K)
  /-- The test for zero. -/
  | isZero (a : LinearCombination K)
  /-- The decomposition into bits. -/
  | toBinary (a : LinearCombination K) (n : Nat)
  /-- The number of given bits. -/
  | fromBinary (as : List (LinearCombination K))
  deriving DecidableEq

/-- What an operation gives back. -/
inductive Result (K : PrimeField) where
  /-- A value. -/
  | value (a : LinearCombination K)
  /-- A value on a wire of its own. -/
  | wire (w : Wire)
  /-- Bits on wires, lowest first. -/
  | wires (ws : List Wire)
  /-- Nothing; something was asserted. -/
  | asserted
  deriving DecidableEq

namespace Operation

variable {K : PrimeField}

/-- What the operation does to a builder. -/
def run : Operation K → Build K (Result K)
  | constant k => return .value (Build.constant k)
  | add a b => .value <$> Build.add a b
  | sub a b => .value <$> Build.sub a b
  | neg a => .value <$> Build.neg a
  | scale a k => .value <$> Build.scale a k
  | sum as => .value <$> Build.sum as
  | mul a b => .wire <$> Build.mul a b
  | mulMany as => .value <$> Build.mulMany as
  | assertEqual a b => (fun _ => .asserted) <$> Build.assertEqual a b
  | inverse a => .value <$> Build.inverse a
  | div a b => .value <$> Build.div a b
  | assertBoolean a => (fun _ => .asserted) <$> Build.assertBoolean a
  | select bit x y => .value <$> Build.select bit x y
  | isZero a => .value <$> Build.isZero a
  | toBinary a n => .wires <$> Build.toBinary a n
  | fromBinary as => .value <$> Build.fromBinary as

/-- Runs operations one after the other and collects what they give back. -/
def runAll : List (Operation K) → Build K (List (Result K))
  | [] => return []
  | op :: ops => do
    let r ← op.run
    return r :: (← runAll ops)

end Operation

end Groth16
