import Groth16.Curve.Groups

/-!
# Sums of multiples

* `msm workers bases scalars`: the sum of the multiples of points by scalars, formed as a number of
  partial sums that are added up. Points or scalars without a partner are ignored.
* `Workers`: into how many partial sums the sums of the prover and of the verifier are split.
* `fixedBase base scalars`: the multiples of one point by a list of scalars.
-/

set_option autoImplicit false

namespace Groth16

variable {K : PrimeField} {G : Type}

/-- The list in stretches of `k + 1` entries; the last stretch may be shorter. -/
def stretches {α : Type} (k : Nat) (xs : List α) : List (List α) :=
  match xs with
  | [] => []
  | x :: rest => (x :: rest.take k) :: stretches k (rest.drop k)
termination_by xs.length
decreasing_by simp only [List.length_drop, List.length_cons]; omega

/-- Fewer points than this are not worth a partial sum of their own. -/
def minStretch : Nat := 256

/-- How many points go into one partial sum. -/
def stretchLength (workers length : Nat) : Nat :=
  max ((length + (max workers 1 - 1)) / max workers 1) minStretch

section
variable [ScalarGroup K G]

/-- The partial sums over stretches of `k + 1` points. -/
def partialSums (k : Nat) (bases : List G) (scalars : List (Fp K)) : List G :=
  List.zipWith (fun bs ss => ScalarGroup.sumOfMultiples (bs.zip ss)) (stretches k bases)
    (stretches k scalars)

/-- The sum of the multiples of points by scalars. -/
def msm (workers : Nat) (bases : List G) (scalars : List (Fp K)) : G :=
  let length := min bases.length scalars.length
  let bases := bases.take length
  let scalars := scalars.take length
  if length = 0 then 0
  else
    let k := stretchLength workers length
    if k < length then (partialSums (k - 1) bases scalars).foldl (· + ·) 0
    else ScalarGroup.sumOfMultiples (bases.zip scalars)

/-- Into how many partial sums a sum of multiples is split. The two ends of a protocol run on
machines of their own, so each has a number of its own. -/
class Workers where
  /-- The number where proofs are made. -/
  proving : Nat
  /-- The number where proofs are verified. -/
  verifying : Nat

/-- The numbers that a program runs with unless it is given others. -/
instance : Workers := ⟨8, 8⟩

/-- The multiples of one point. -/
def fixedBase (base : G) (scalars : List (Fp K)) : List G := scalars.map (· • base)

end

end Groth16
