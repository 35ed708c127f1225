import Groth16.Proofs.Domain.Transform

/-!
# A pass, pair by pair

A pass gives every entry from the vector before the pass.  The same vector comes about in place: the
stretches are gone through one after the other, and in each the pairs, and a pair is overwritten with
its sum and its difference as soon as it is read.  No pair reads what an earlier one has written.

* `combinePair`, `combineStretch`, `combineStretches`: a pair, a stretch and a whole pass in place.
* `PairsDone`: what holds after some pairs of a stretch; `pairsDone_after` is the induction.
* `vectorAt_combineUpTo`: what holds after some stretches.
* `combineStretches_eq`: the pass in place is the pass.
* `transform_eq_inPlace`: a transform is the reordering and then its passes in place.
-/

set_option autoImplicit false

namespace Groth16

variable {K : PrimeField} {ratio : Fp K} {half start : Nat} {a : Array (Fp K)}

/-! ## In place -/

/-- Writes the sum and the difference of two entries in their place, the second taken times `w`. -/
def combinePair (w : Fp K) (i j : Nat) (a : Array (Fp K)) : Array (Fp K) :=
  let u := a.getD i 0
  let v := a.getD j 0 * w
  (a.setIfInBounds i (u + v)).setIfInBounds j (u - v)

/-- Combines the pair at place `i` of the stretch that starts at `start`, and moves on to the next
power of the ratio. -/
def combineNext (ratio : Fp K) (half start : Nat) (state : Fp K × Array (Fp K)) (i : Nat) :
    Fp K × Array (Fp K) :=
  (state.1 * ratio, combinePair state.1 (start + i) (start + half + i) state.2)

/-- Combines the pairs of the stretch that starts at `start`. -/
def combineStretch (ratio : Fp K) (half : Nat) (a : Array (Fp K)) (start : Nat) : Array (Fp K) :=
  ((List.range half).foldl (combineNext ratio half start) (1, a)).2

/-- Combines the pairs of all stretches of `2 * half` entries. -/
def combineStretches (ratio : Fp K) (half : Nat) (a : Array (Fp K)) : Array (Fp K) :=
  (List.range' 0 (a.size / (2 * half)) (2 * half)).foldl (combineStretch ratio half) a

@[simp] theorem size_combinePair (w : Fp K) (i j : Nat) (a : Array (Fp K)) :
    (combinePair w i j a).size = a.size := by
  simp [combinePair]

theorem vectorAt_combinePair {i j : Nat} (hi : i < a.size) (hj : j < a.size) (w : Fp K) (p : Nat) :
    vectorAt (combinePair w i j a) p =
      if p = j then vectorAt a i - vectorAt a j * w
      else if p = i then vectorAt a i + vectorAt a j * w
      else vectorAt a p := by
  rw [combinePair, vectorAt_setIfInBounds (by rwa [Array.size_setIfInBounds]),
    vectorAt_setIfInBounds hi]
  rfl

/-! ## One stretch -/

/-- What holds of the power and the vector after `m` pairs of a stretch. -/
structure PairsDone (ratio : Fp K) (half start m : Nat) (a : Array (Fp K))
    (state : Fp K × Array (Fp K)) : Prop where
  /-- The power is the one for the next pair. -/
  power : state.1 = ratio ^ m
  /-- The vector keeps its length. -/
  size : state.2.size = a.size
  /-- In the first half there are the sums. -/
  sums : ∀ i < m, vectorAt state.2 (start + i) =
    vectorAt a (start + i) + vectorAt a (start + half + i) * ratio ^ i
  /-- In the second half there are the differences. -/
  differences : ∀ i < m, vectorAt state.2 (start + half + i) =
    vectorAt a (start + i) - vectorAt a (start + half + i) * ratio ^ i
  /-- All other entries are what they were. -/
  others : ∀ p, (∀ i < m, p ≠ start + i ∧ p ≠ start + half + i) → vectorAt state.2 p = vectorAt a p

theorem pairsDone_zero (ratio : Fp K) (half start : Nat) (a : Array (Fp K)) :
    PairsDone ratio half start 0 a (1, a) where
  power := (pow_zero ratio).symm
  size := rfl
  sums i hi := absurd hi (Nat.not_lt_zero i)
  differences i hi := absurd hi (Nat.not_lt_zero i)
  others _ _ := rfl

/-- The next pair is still as it was before the stretch, so combining it goes on with the same
vector. -/
theorem PairsDone.step {m : Nat} {state : Fp K × Array (Fp K)}
    (done : PairsDone ratio half start m a state) (lt : m < half)
    (room : start + 2 * half ≤ a.size) :
    PairsDone ratio half start (m + 1) a (combineNext ratio half start state m) := by
  have hleft : vectorAt state.2 (start + m) = vectorAt a (start + m) :=
    done.others _ fun i hi => by omega
  have hright : vectorAt state.2 (start + half + m) = vectorAt a (start + half + m) :=
    done.others _ fun i hi => by omega
  have hentry : ∀ p, vectorAt (combineNext ratio half start state m).2 p =
      if p = start + half + m then
        vectorAt a (start + m) - vectorAt a (start + half + m) * ratio ^ m
      else if p = start + m then
        vectorAt a (start + m) + vectorAt a (start + half + m) * ratio ^ m
      else vectorAt state.2 p := by
    intro p
    rw [combineNext, vectorAt_combinePair (by rw [done.size]; omega) (by rw [done.size]; omega),
      hleft, hright, done.power]
  refine ⟨?_, ?_, fun i hi => ?_, fun i hi => ?_, fun p hp => ?_⟩
  · rw [combineNext, done.power, pow_succ]
  · rw [combineNext, size_combinePair, done.size]
  · rw [hentry, if_neg (by omega)]
    split
    · next heq =>
      obtain rfl : i = m := by omega
      rfl
    · exact done.sums i (by omega)
  · rw [hentry]
    split
    · next heq =>
      obtain rfl : i = m := by omega
      rfl
    · rw [if_neg (by omega)]
      exact done.differences i (by omega)
  · obtain ⟨hne, hne'⟩ := hp m (Nat.lt_succ_self m)
    rw [hentry, if_neg hne', if_neg hne]
    exact done.others p fun i hi => hp i (Nat.lt_succ_of_lt hi)

/-- It holds after every pair of a stretch. -/
theorem pairsDone_after (ratio : Fp K) {m : Nat} (le : m ≤ half)
    (room : start + 2 * half ≤ a.size) :
    PairsDone ratio half start m a
      ((List.range m).foldl (combineNext ratio half start) (1, a)) := by
  induction m with
  | zero => exact pairsDone_zero ratio half start a
  | succ m ih =>
    rw [List.range_succ, List.foldl_append]
    exact (ih (Nat.le_of_succ_le le)).step le room

/-! ## All stretches -/

/-- The vector after the first `q` stretches. -/
def combineUpTo (ratio : Fp K) (half : Nat) (a : Array (Fp K)) (q : Nat) : Array (Fp K) :=
  (List.range' 0 q (2 * half)).foldl (combineStretch ratio half) a

theorem combineUpTo_succ (ratio : Fp K) (half : Nat) (a : Array (Fp K)) (q : Nat) :
    combineUpTo ratio half a (q + 1) =
      combineStretch ratio half (combineUpTo ratio half a q) (q * (2 * half)) := by
  rw [combineUpTo, List.range'_concat, List.foldl_append, Nat.zero_add, Nat.mul_comm (2 * half) q,
    combineUpTo]
  rfl

/-- **The invariant of the stretches.**  The entries of the first `q` stretches are those after the
pass, and all others those before it. -/
theorem vectorAt_combineUpTo (ratio : Fp K) {q : Nat} (room : q * (2 * half) ≤ a.size) :
    (combineUpTo ratio half a q).size = a.size ∧
      ∀ p, vectorAt (combineUpTo ratio half a q) p =
        if p < q * (2 * half) then vectorAt (butterflies half (powers 1 ratio half).toArray a) p
        else vectorAt a p := by
  induction q with
  | zero => exact ⟨rfl, fun p => by rw [Nat.zero_mul, if_neg (Nat.not_lt_zero p)]; rfl⟩
  | succ q ih =>
    rw [Nat.add_mul, Nat.one_mul] at room ⊢
    obtain ⟨hsize, hentry⟩ := ih (by omega)
    have done := pairsDone_after ratio le_rfl (room.trans_eq hsize.symm)
    -- What the stretch reads, no stretch before it has written.
    have hbefore : ∀ p, q * (2 * half) ≤ p →
        vectorAt (combineUpTo ratio half a q) p = vectorAt a p :=
      fun p hp => by rw [hentry, if_neg (Nat.not_lt.2 hp)]
    rw [combineUpTo_succ]
    refine ⟨done.size.trans hsize, fun p => ?_⟩
    by_cases hearlier : p < q * (2 * half)
    · rw [if_pos (by omega)]
      refine (done.others p fun i hi => by omega).trans ?_
      rw [hentry, if_pos hearlier]
    · by_cases hleft : p < q * (2 * half) + half
      · obtain ⟨s, rfl⟩ := Nat.exists_eq_add_of_le (Nat.le_of_not_lt hearlier)
        rw [if_pos (by omega), vectorAt_butterflies_left ratio (by omega) (by omega)]
        refine (done.sums s (by omega)).trans ?_
        rw [hbefore _ (by omega), hbefore _ (by omega)]
      · by_cases hright : p < q * (2 * half) + 2 * half
        · obtain ⟨s, rfl⟩ := Nat.exists_eq_add_of_le (Nat.le_of_not_lt hleft)
          rw [if_pos hright, vectorAt_butterflies_right ratio (by omega) (by omega)]
          refine (done.differences s (by omega)).trans ?_
          rw [hbefore _ (by omega), hbefore _ (by omega)]
        · rw [if_neg hright]
          refine (done.others p fun i hi => by omega).trans ?_
          rw [hbefore p (by omega)]

/-- **The pass in place is the pass**, where the stretches fill the vector. -/
theorem combineStretches_eq (ratio : Fp K) (fill : 2 * half ∣ a.size) :
    combineStretches ratio half a = butterflies half (powers 1 ratio half).toArray a := by
  have hall : a.size / (2 * half) * (2 * half) = a.size := Nat.div_mul_cancel fill
  obtain ⟨hsize, hentry⟩ := vectorAt_combineUpTo ratio hall.le
  rw [hall] at hentry
  refine ext_vectorAt (hsize.trans (by simp [butterflies])) fun p hp => ?_
  exact (hentry p).trans (if_pos (hp.trans_eq hsize))

/-- **A transform is the reordering and then its passes in place**, with stretches of growing
length. -/
theorem transform_eq_inPlace {k : Nat} (root : Fp K) (size : a.size = 2 ^ k) :
    transform root a = (List.range k).foldl
      (fun b r => combineStretches (root ^ (2 ^ k / 2 ^ (r + 1))) (2 ^ r) b) (bitReversal a) := by
  have hpasses : ∀ m ≤ k, passes root (bitReversal a) m = (List.range m).foldl
      (fun b r => combineStretches (root ^ (2 ^ k / 2 ^ (r + 1))) (2 ^ r) b) (bitReversal a) := by
    intro m
    induction m with
    | zero => exact fun _ => rfl
    | succ m ih =>
      intro hm
      have hlength : (passes root (bitReversal a) m).size = 2 ^ k := by
        rw [size_passes, size_bitReversal size]
      rw [passes_succ, List.range_succ, List.foldl_append, ← ih (Nat.le_of_succ_le hm), pass_eq,
        hlength]
      refine (combineStretches_eq _ ?_).symm
      rw [hlength, ← pow_succ']
      exact pow_dvd_pow 2 hm
  rw [transform, size, Nat.log2_two_pow, ← passes, hpasses k le_rfl]

end Groth16
