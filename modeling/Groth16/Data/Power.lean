/-!
# Powers and multiples

Square-and-multiply and its additive form, double-and-add, over any type with the operations.

* `power x n`: the product of `n` factors `x`.
* `multiple n x`: the sum of `n` summands `x`.
-/

set_option autoImplicit false

namespace Groth16

universe u

/-- The product of `n` factors `x`, as long as `n < 2 ^ fuel`. -/
def powerWithin {M : Type u} [One M] [Mul M] : Nat → M → Nat → M
  | 0, _, _ => 1
  | fuel + 1, x, n =>
    let rest := powerWithin fuel (x * x) (n / 2)
    if n % 2 = 1 then x * rest else rest

/-- The product of `n` factors `x`. -/
def power {M : Type u} [One M] [Mul M] (x : M) (n : Nat) : M :=
  if n = 0 then 1 else powerWithin (n.log2 + 1) x n

/-- The sum of `n` summands `x`, as long as `n < 2 ^ fuel`. -/
def multipleWithin {M : Type u} [Zero M] [Add M] : Nat → M → Nat → M
  | 0, _, _ => 0
  | fuel + 1, x, n =>
    let rest := multipleWithin fuel (x + x) (n / 2)
    if n % 2 = 1 then x + rest else rest

/-- The sum of `n` summands `x`. -/
def multiple {M : Type u} [Zero M] [Add M] (n : Nat) (x : M) : M :=
  if n = 0 then 0 else multipleWithin (n.log2 + 1) x n

end Groth16
