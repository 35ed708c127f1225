import Groth16.Field.Basic

/-!
# Number-theoretic transforms

The radix-2 transform of a vector whose length is a power of two: the entries are first put into
the order of the reversed bits of their positions, then halves of growing length are combined.

* `reversedNext`: one added to a counter whose bits are held in reverse.
* `bitReversal`: the reordering, driven by such a counter.
* `butterflies`: one pass of combinations.
* `transform?`, `inverseTransform?`: the transform with a given root of unity, and the transform
  with its inverse divided by the length.
* `scaleByPowers`: the entries times the powers of an element.

A length that is not a power of two has no transform, which is what the `?` stands for.
-/

set_option autoImplicit false

namespace Groth16

variable {K : PrimeField}

/-- The geometric sequence with the given start and ratio. -/
def powers (start ratio : Fp K) : Nat → List (Fp K)
  | 0 => []
  | len + 1 => start :: powers (start * ratio) ratio len

@[simp] theorem length_powers (start ratio : Fp K) (len : Nat) :
    (powers start ratio len).length = len := by
  induction len generalizing start with
  | zero => rfl
  | succ len ih => simp [powers, ih]

/-- The number is a power of two. -/
def isTwoPower (n : Nat) : Bool := 1 <<< n.log2 == n

/-! ## Bit reversal -/

/-- Clears the run of ones of `j` that starts at the one-bit number `bit` and goes down, and says
where the run ends. -/
def clearRun (j bit : Nat) : Nat × Nat :=
  if _run : j &&& bit ≠ 0 then clearRun (j ^^^ bit) (bit >>> 1) else (j, bit)
termination_by bit
decreasing_by
  have : bit ≠ 0 := by
    rintro rfl
    simp at _run
  rw [Nat.shiftRight_eq_div_pow]
  omega

/-- The counter `j` plus one, where the bits of a counter below `n` are held in reverse. -/
def reversedNext (n j : Nat) : Nat :=
  let (j, bit) := clearRun j (n >>> 1)
  j ^^^ bit

/-- One step of the reordering: the counter moves on, and position `i` is exchanged with the
counter's position if that has not happened yet. -/
def reversalStep {α : Type} (n : Nat) (state : Nat × Array α) (i : Nat) : Nat × Array α :=
  let j := reversedNext n state.1
  (j, if i < j then state.2.swapIfInBounds i j else state.2)

/-- The vector with each entry moved to the position whose bits are reversed. -/
def bitReversal {α : Type} (a : Array α) : Array α :=
  ((List.range' 1 (a.size - 1)).foldl (reversalStep a.size) (0, a)).2

/-! ## The transform -/

/-- One pass: in every stretch of `2 * half` entries, entry `i` of the first half and entry `i` of
the second become their sum and their difference, the second taken times `twiddles[i]`. -/
def butterflies (half : Nat) (twiddles : Array (Fp K)) (a : Array (Fp K)) : Array (Fp K) :=
  Array.ofFn fun i : Fin a.size =>
    let r := i.val % (2 * half)
    if r < half then a.getD i.val 0 + a.getD (i.val + half) 0 * twiddles.getD r 0
    else a.getD (i.val - half) 0 - a.getD i.val 0 * twiddles.getD (r - half) 0

/-- The pass with stretches of `2 ^ (k + 1)` entries, for a root of unity of order `a.size`. -/
def pass (root : Fp K) (a : Array (Fp K)) (k : Nat) : Array (Fp K) :=
  let half := 1 <<< k
  butterflies half (powers 1 (root ^ (a.size / (2 * half))) half).toArray a

/-- The transform of a vector whose length is a power of two. -/
def transform (root : Fp K) (a : Array (Fp K)) : Array (Fp K) :=
  (List.range a.size.log2).foldl (pass root) (bitReversal a)

/-- The transform, where the length is a power of two. -/
def transform? (root : Fp K) (a : Array (Fp K)) : Option (Array (Fp K)) :=
  if isTwoPower a.size then some (transform root a) else none

/-- The transform with the inverse root, divided by the length. Where the root or the length has
no inverse, the vector is left as it is. -/
def inverseTransform? (root : Fp K) (a : Array (Fp K)) : Option (Array (Fp K)) :=
  match root.inverse?, (Fp.ofNat K a.size).inverse? with
  | some rootInv, some sizeInv => (transform? rootInv a).map fun b => b.map (· * sizeInv)
  | _, _ => some a

/-- Entry `i` times the power `i` of an element. -/
def scaleByPowers (g : Fp K) (a : Array (Fp K)) : Array (Fp K) :=
  Array.zipWith (· * ·) a (powers 1 g a.size).toArray

end Groth16
