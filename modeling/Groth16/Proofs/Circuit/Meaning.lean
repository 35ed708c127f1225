import Groth16.Proofs.Circuit.Emission

/-!
# What operations mean

An operation names a computation on field elements.  This file says which, without constraints,
recipes or builders, and leaves it to `Groth16.Proofs.Circuit.Gadgets` to show that what the builder
records for an operation is that computation.

* `Operation.Possible`: the computation can be carried out: no division by zero, asserted
  equalities hold, asserted bits are bits, the value of a decomposition fits.
* `Operation.values`: the values that it gives.
* `Operation.wireValues`: the values of the wires that the builder allocates for it.
* `Operation.execute?`: a list of operations carried out one after the other, on field elements
  only.

An operand is a linear combination, and the first three take the values of linear combinations as a
parameter `v`.  Whether an operation is possible, and what its wires hold, depends on `v` only through
the operands (`possible_congr`, `wireValues_congr`).
-/

set_option autoImplicit false

namespace Groth16

variable {K : PrimeField}

/-- The values that a result stands for where wire `i` holds `z i`. -/
def Result.values (z : Nat → Fp K) : Result K → List (Fp K)
  | .value a => [a.eval z]
  | .wire w => [z w.index]
  | .wires ws => ws.map fun w => z w.index
  | .asserted => []

/-- The wires that a result mentions. -/
def Result.mentioned : Result K → List Wire
  | .value a => a.wires
  | .wire w => [w]
  | .wires ws => ws
  | .asserted => []

/-- The products of `acc` with ever more factors. -/
def partialProducts (acc : Fp K) : List (Fp K) → List (Fp K)
  | [] => []
  | f :: fs => acc * f :: partialProducts (acc * f) fs

@[simp] theorem length_partialProducts (acc : Fp K) (fs : List (Fp K)) :
    (partialProducts acc fs).length = fs.length := by
  induction fs generalizing acc with
  | nil => rfl
  | cons f fs ih => rw [partialProducts, List.length_cons, List.length_cons, ih]

namespace Operation

/-! ## Definitions -/

/-- The computation that the operation names can be carried out. -/
def Possible (v : LinearCombination K → Fp K) : Operation K → Prop
  | assertEqual a b => v a = v b
  | inverse a => v a ≠ 0
  | div _ b => v b ≠ 0
  | assertBoolean a => (v a).IsBit
  | select bit _ _ => (v bit).IsBit
  | toBinary a n => (v a).val < 2 ^ n
  | fromBinary as => ∀ a ∈ as, (v a).IsBit
  | _ => True

instance (v : LinearCombination K → Fp K) : ∀ op : Operation K, Decidable (op.Possible v)
  | assertEqual a b => inferInstanceAs (Decidable (v a = v b))
  | inverse a => inferInstanceAs (Decidable (v a ≠ 0))
  | div _ b => inferInstanceAs (Decidable (v b ≠ 0))
  | assertBoolean a => inferInstanceAs (Decidable (v a).IsBit)
  | select bit _ _ => inferInstanceAs (Decidable (v bit).IsBit)
  | toBinary a n => inferInstanceAs (Decidable ((v a).val < 2 ^ n))
  | fromBinary as => inferInstanceAs (Decidable (∀ a ∈ as, (v a).IsBit))
  | constant _ | add _ _ | sub _ _ | neg _ | scale _ _ | sum _ | mul _ _ | mulMany _ | isZero _ =>
    inferInstanceAs (Decidable True)

section
variable [prime : Fact K.modulus.Prime]

/-- The values that the operation gives. -/
def values (v : LinearCombination K → Fp K) : Operation K → List (Fp K)
  | constant k => [k]
  | add a b => [v a + v b]
  | sub a b => [v a - v b]
  | neg a => [-v a]
  | scale a k => [k * v a]
  | sum as => [(as.map v).sum]
  | mul a b => [v a * v b]
  | mulMany as => [(as.map v).prod]
  | inverse a => [(v a)⁻¹]
  | div a b => [v a / v b]
  | select bit x y => [if v bit = 1 then v x else v y]
  | isZero a => [if v a = 0 then 1 else 0]
  | toBinary a n => (v a).bitsOf n
  | fromBinary as => [Fp.bitSum (as.map v)]
  | assertEqual _ _ | assertBoolean _ => []

/-- The values of the wires that the builder allocates for the operation, in their order. -/
def wireValues (v : LinearCombination K → Fp K) : Operation K → List (Fp K)
  | mul a b => [v a * v b]
  | mulMany (a :: as) => partialProducts (v a) (as.map v)
  | inverse a => if a.isConstant then [] else [(v a)⁻¹]
  | div a b => if b.isConstant then [] else [v a / v b]
  | select bit x y =>
    if bit.isConstant || (x - y).isEmpty then [] else [v bit * (v x - v y)]
  | isZero a => if a.isConstant then [] else [(v a)⁻¹, if v a = 0 then 1 else 0]
  | toBinary a n => (v a).bitsOf n
  | constant _ | add _ _ | sub _ _ | neg _ | scale _ _ | sum _ | mulMany [] | assertEqual _ _
  | assertBoolean _ | fromBinary _ => []

/-- Carries out operations on field elements: `zs` are the values of the wires so far, and each
operation adds the values of its wires.  There is no outcome if one of them is impossible. -/
def execute? (zs : List (Fp K)) : List (Operation K) → Option (List (Fp K))
  | [] => some zs
  | op :: ops =>
    let v := fun a : LinearCombination K => a.eval (listAt zs)
    if op.Possible v then execute? (zs ++ op.wireValues v) ops else none

/-! ## Operands -/

variable {v v' : LinearCombination K → Fp K} {op : Operation K}

omit prime in
theorem possible_congr (h : ∀ a ∈ op.operands, v a = v' a) :
    op.Possible v ↔ op.Possible v' := by
  cases op <;> simp_all [operands, Possible]

theorem wireValues_congr (h : ∀ a ∈ op.operands, v a = v' a) :
    op.wireValues v = op.wireValues v' := by
  cases op with
  | mulMany as =>
    cases as with
    | nil => rfl
    | cons a as =>
      rw [operands, List.forall_mem_cons] at h
      rw [wireValues, wireValues, h.1, List.map_congr_left h.2]
  | _ => simp_all [operands, wireValues]

end

end Operation

end Groth16
