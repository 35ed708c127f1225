import Mathlib.Algebra.BigOperators.Ring.Finset
import Mathlib.Algebra.BigOperators.Intervals
import Groth16.Proofs.Domain.BitReversal
import Groth16.Proofs.Field.Vectors

/-!
# The transform computes values of a polynomial

The passes of a transform combine halves of growing length.  After `r` passes every stretch of
`2 ^ r` entries holds the values that its entries, taken in the order of their reversed positions as
coefficients, have at the powers of a root of unity of order `2 ^ r`.  After the last pass this is
the whole vector, and the reordering at the beginning has put the coefficients into their order.

* `vectorAt_pass_left`, `vectorAt_pass_right`: what one pass does to an entry.
* `vectorAt_passes`: the invariant of the passes.
* `vectorAt_transform`: entry `i` of the transform is `Σ aⱼ ω^(i j)`.
* `vectorAt_scaleByPowers`: entry `i` of a scaled vector is `aᵢ gⁱ`.
-/

set_option autoImplicit false

namespace Groth16

variable {K : PrimeField}

open Finset

/-! ## Powers -/

theorem getElem?_powers (start ratio : Fp K) {n i : Nat} (h : i < n) :
    (powers start ratio n)[i]? = some (start * ratio ^ i) := by
  induction n generalizing start i with
  | zero => omega
  | succ n ih =>
    rw [powers]
    cases i with
    | zero => rw [List.getElem?_cons_zero, pow_zero, mul_one]
    | succ i => rw [List.getElem?_cons_succ, ih (start * ratio) (by omega), mul_assoc, ← pow_succ']

theorem vectorAt_powers (ratio : Fp K) {n i : Nat} (h : i < n) :
    vectorAt (powers 1 ratio n).toArray i = ratio ^ i := by
  rw [vectorAt_of_getElem? (x := ratio ^ i)]
  rw [List.getElem?_toArray, getElem?_powers 1 ratio h, one_mul]

@[simp] theorem size_scaleByPowers (g : Fp K) (a : Array (Fp K)) :
    (scaleByPowers g a).size = a.size := by
  simp [scaleByPowers]

/-- Entry `i` of a scaled vector. -/
theorem vectorAt_scaleByPowers (g : Fp K) (a : Array (Fp K)) (i : Nat) :
    vectorAt (scaleByPowers g a) i = vectorAt a i * g ^ i := by
  by_cases h : i < a.size
  · refine vectorAt_of_getElem? ?_
    rw [scaleByPowers, Array.getElem?_zipWith, getElem?_eq_vectorAt h, List.getElem?_toArray,
      getElem?_powers 1 g h, one_mul]
  · rw [vectorAt_of_size_le (by rw [size_scaleByPowers]; omega), vectorAt_of_size_le (by omega),
      zero_mul]

/-! ## One pass -/

@[simp] theorem size_pass (root : Fp K) (a : Array (Fp K)) (k : Nat) :
    (pass root a k).size = a.size := by
  simp [pass, butterflies]

theorem vectorAt_butterflies {half : Nat} {twiddles a : Array (Fp K)} {i : Nat} (h : i < a.size) :
    vectorAt (butterflies half twiddles a) i =
      if i % (2 * half) < half then
        vectorAt a i + vectorAt a (i + half) * vectorAt twiddles (i % (2 * half))
      else vectorAt a (i - half) - vectorAt a i * vectorAt twiddles (i % (2 * half) - half) := by
  refine vectorAt_of_getElem? ?_
  rw [butterflies, Array.getElem?_ofFn, dif_pos h]
  rfl

/-- An entry of the first half of a stretch. -/
theorem vectorAt_butterflies_left {half q s : Nat} {a : Array (Fp K)} (ratio : Fp K) (hs : s < half)
    (h : q * (2 * half) + s < a.size) :
    vectorAt (butterflies half (powers 1 ratio half).toArray a) (q * (2 * half) + s) =
      vectorAt a (q * (2 * half) + s) + vectorAt a (q * (2 * half) + half + s) * ratio ^ s := by
  have hmod : (q * (2 * half) + s) % (2 * half) = s := Nat.mul_add_mod_of_lt (by omega)
  rw [vectorAt_butterflies h, hmod, if_pos hs, vectorAt_powers _ hs, Nat.add_right_comm]

/-- An entry of the second half of a stretch. -/
theorem vectorAt_butterflies_right {half q s : Nat} {a : Array (Fp K)} (ratio : Fp K)
    (hs : s < half) (h : q * (2 * half) + half + s < a.size) :
    vectorAt (butterflies half (powers 1 ratio half).toArray a) (q * (2 * half) + half + s) =
      vectorAt a (q * (2 * half) + s) - vectorAt a (q * (2 * half) + half + s) * ratio ^ s := by
  have hmod : (q * (2 * half) + half + s) % (2 * half) = half + s := by
    rw [Nat.add_assoc]
    exact Nat.mul_add_mod_of_lt (by omega)
  have hsub : q * (2 * half) + half + s - half = q * (2 * half) + s := by omega
  rw [vectorAt_butterflies h, hmod, if_neg (by omega), hsub, Nat.add_sub_cancel_left,
    vectorAt_powers _ hs]

theorem pass_eq (root : Fp K) (a : Array (Fp K)) (k : Nat) :
    pass root a k = butterflies (2 ^ k)
      (powers 1 (root ^ (a.size / 2 ^ (k + 1))) (2 ^ k)).toArray a := by
  rw [pass, Nat.one_shiftLeft, ← pow_succ']

theorem vectorAt_pass_left {root : Fp K} {a : Array (Fp K)} {k q s : Nat} (hs : s < 2 ^ k)
    (h : q * 2 ^ (k + 1) + s < a.size) :
    vectorAt (pass root a k) (q * 2 ^ (k + 1) + s) =
      vectorAt a (q * 2 ^ (k + 1) + s) +
        vectorAt a (q * 2 ^ (k + 1) + 2 ^ k + s) * (root ^ (a.size / 2 ^ (k + 1))) ^ s := by
  rw [pass_eq]
  generalize root ^ (a.size / 2 ^ (k + 1)) = ratio
  rw [pow_succ'] at h ⊢
  exact vectorAt_butterflies_left ratio hs h

theorem vectorAt_pass_right {root : Fp K} {a : Array (Fp K)} {k q s : Nat} (hs : s < 2 ^ k)
    (h : q * 2 ^ (k + 1) + 2 ^ k + s < a.size) :
    vectorAt (pass root a k) (q * 2 ^ (k + 1) + 2 ^ k + s) =
      vectorAt a (q * 2 ^ (k + 1) + s) -
        vectorAt a (q * 2 ^ (k + 1) + 2 ^ k + s) * (root ^ (a.size / 2 ^ (k + 1))) ^ s := by
  rw [pass_eq]
  generalize root ^ (a.size / 2 ^ (k + 1)) = ratio
  rw [pow_succ'] at h ⊢
  exact vectorAt_butterflies_right ratio hs h

/-! ## All passes -/

/-- The first passes of a transform. -/
def passes (root : Fp K) (a : Array (Fp K)) (r : Nat) : Array (Fp K) :=
  (List.range r).foldl (pass root) a

theorem passes_succ (root : Fp K) (a : Array (Fp K)) (r : Nat) :
    passes root a (r + 1) = pass root (passes root a r) r := by
  rw [passes, List.range_succ, List.foldl_append, List.foldl_cons, List.foldl_nil, passes]

@[simp] theorem size_passes (root : Fp K) (a : Array (Fp K)) (r : Nat) :
    (passes root a r).size = a.size := by
  induction r with
  | zero => rfl
  | succ r ih => rw [passes_succ, size_pass, ih]

/-- A sum over a stretch is the sum over its halves. -/
theorem sum_range_two_pow_succ {M : Type} [AddCommMonoid M] (f : Nat → M) (r : Nat) :
    ∑ t ∈ range (2 ^ (r + 1)), f t = ∑ t ∈ range (2 ^ r), f t + ∑ t ∈ range (2 ^ r), f (2 ^ r + t) := by
  rw [pow_succ, Nat.mul_two, sum_range_add]

/-- The values at the powers of a root from the values at the powers of its square, in the first half
of a stretch. -/
theorem sum_reversed_left (f : Nat → Fp K) (w : Fp K) (r s : Nat) :
    ∑ t ∈ range (2 ^ (r + 1)), f t * w ^ (s * reversed (r + 1) t) =
      ∑ t ∈ range (2 ^ r), f t * (w ^ 2) ^ (s * reversed r t) +
        (∑ t ∈ range (2 ^ r), f (2 ^ r + t) * (w ^ 2) ^ (s * reversed r t)) * w ^ s := by
  rw [sum_range_two_pow_succ, sum_mul]
  congr 1
  · refine sum_congr rfl fun t ht => ?_
    rw [reversed_succ_of_lt (mem_range.1 ht), ← pow_mul]
    ring
  · refine sum_congr rfl fun t ht => ?_
    rw [reversed_succ_add (mem_range.1 ht), ← pow_mul]
    ring

/-- The values at the powers of a root from the values at the powers of its square, in the second
half of a stretch. -/
theorem sum_reversed_right (f : Nat → Fp K) {w : Fp K} {r : Nat} (half : w ^ 2 ^ r = -1) (s : Nat) :
    ∑ t ∈ range (2 ^ (r + 1)), f t * w ^ ((2 ^ r + s) * reversed (r + 1) t) =
      ∑ t ∈ range (2 ^ r), f t * (w ^ 2) ^ (s * reversed r t) -
        (∑ t ∈ range (2 ^ r), f (2 ^ r + t) * (w ^ 2) ^ (s * reversed r t)) * w ^ s := by
  have heven : ∀ m, w ^ (2 ^ r * (2 * m)) = 1 := by
    intro m
    rw [pow_mul, half, pow_mul, neg_one_sq, one_pow]
  have hodd : ∀ m, w ^ (2 ^ r * (2 * m + 1)) = -1 := by
    intro m
    rw [Nat.mul_add, pow_add, heven, Nat.mul_one, half, one_mul]
  rw [sum_range_two_pow_succ, sum_mul, sub_eq_add_neg, ← sum_neg_distrib]
  congr 1
  · refine sum_congr rfl fun t ht => ?_
    rw [reversed_succ_of_lt (mem_range.1 ht), ← pow_mul, Nat.add_mul, pow_add, heven]
    ring
  · refine sum_congr rfl fun t ht => ?_
    rw [reversed_succ_add (mem_range.1 ht), ← pow_mul, Nat.add_mul, pow_add, hodd]
    ring

theorem stretch_lt {k r q s : Nat} (hr : r ≤ k) (hq : q < 2 ^ (k - r)) (hs : s < 2 ^ r) :
    q * 2 ^ r + s < 2 ^ k := by
  calc q * 2 ^ r + s < (q + 1) * 2 ^ r := by rw [Nat.add_mul, Nat.one_mul]; omega
    _ ≤ 2 ^ (k - r) * 2 ^ r := Nat.mul_le_mul_right _ hq
    _ = 2 ^ k := by rw [← pow_add, Nat.sub_add_cancel hr]

/-- **The invariant of the passes.**  After `r` passes, entry `s` of a stretch of `2 ^ r` entries is
the value at the power `s` of a root of unity of order `2 ^ r` of the polynomial whose coefficients
are the entries of the stretch, in the order of their reversed positions. -/
theorem vectorAt_passes {k : Nat} (root : Fp K) {a : Array (Fp K)} (size : a.size = 2 ^ k)
    (half : 0 < k → root ^ 2 ^ (k - 1) = -1) {r : Nat} (hr : r ≤ k) {q s : Nat}
    (hq : q < 2 ^ (k - r)) (hs : s < 2 ^ r) :
    vectorAt (passes root a r) (q * 2 ^ r + s) =
      ∑ t ∈ range (2 ^ r),
        vectorAt a (q * 2 ^ r + t) * (root ^ 2 ^ (k - r)) ^ (s * reversed r t) := by
  induction r generalizing q s with
  | zero =>
    obtain rfl : s = 0 := Nat.lt_one_iff.1 hs
    simp [passes]
  | succ r ih =>
    have hk : k - r = k - (r + 1) + 1 := by omega
    have htwiddle : 2 ^ k / 2 ^ (r + 1) = 2 ^ (k - (r + 1)) := Nat.pow_div hr Nat.zero_lt_two
    have hsquare : root ^ 2 ^ (k - r) = (root ^ 2 ^ (k - (r + 1))) ^ 2 := by
      rw [← pow_mul, hk, pow_succ]
    have hneg : (root ^ 2 ^ (k - (r + 1))) ^ 2 ^ r = -1 := by
      rw [← pow_mul, ← pow_add, ← half (by omega)]
      congr 2
      omega
    have hleft : q * 2 ^ (r + 1) = 2 * q * 2 ^ r := by rw [pow_succ]; ring
    have hright : q * 2 ^ (r + 1) + 2 ^ r = (2 * q + 1) * 2 ^ r := by rw [pow_succ]; ring
    rw [hsquare, hk, pow_succ] at ih
    -- The stretch is made of the stretches `2 q` and `2 q + 1` of the pass before.
    have halves : ∀ s < 2 ^ r,
        vectorAt (passes root a r) (q * 2 ^ (r + 1) + s) =
          ∑ t ∈ range (2 ^ r), vectorAt a (q * 2 ^ (r + 1) + t) *
            ((root ^ 2 ^ (k - (r + 1))) ^ 2) ^ (s * reversed r t) ∧
        vectorAt (passes root a r) (q * 2 ^ (r + 1) + 2 ^ r + s) =
          ∑ t ∈ range (2 ^ r), vectorAt a (q * 2 ^ (r + 1) + (2 ^ r + t)) *
            ((root ^ 2 ^ (k - (r + 1))) ^ 2) ^ (s * reversed r t) := by
      intro s hs
      have ihl := ih (by omega) (q := 2 * q) (by omega) hs
      have ihr := ih (by omega) (q := 2 * q + 1) (by omega) hs
      rw [← hleft] at ihl
      rw [← hright] at ihr
      simp only [Nat.add_assoc] at ihl ihr ⊢
      exact ⟨ihl, ihr⟩
    have hlt := stretch_lt hr hq hs
    rw [passes_succ]
    by_cases hfirst : s < 2 ^ r
    · obtain ⟨ihl, ihr⟩ := halves s hfirst
      rw [vectorAt_pass_left hfirst (by rwa [size_passes, size]), size_passes, size, htwiddle,
        sum_reversed_left, ihl, ihr]
    · obtain ⟨s, rfl⟩ := Nat.exists_eq_add_of_le (Nat.le_of_not_lt hfirst)
      have hs' : s < 2 ^ r := by
        rw [pow_succ] at hs
        omega
      obtain ⟨ihl, ihr⟩ := halves s hs'
      rw [← Nat.add_assoc] at hlt ⊢
      rw [vectorAt_pass_right hs' (by rwa [size_passes, size]), size_passes, size, htwiddle,
        sum_reversed_right _ hneg, ihl, ihr]

/-! ## The transform -/

/-- Summing over positions in the order of their reverses changes nothing. -/
theorem sum_reversed {M : Type} [AddCommMonoid M] (k : Nat) (f : Nat → M) :
    ∑ t ∈ range (2 ^ k), f (reversed k t) = ∑ j ∈ range (2 ^ k), f j := by
  refine sum_nbij' (reversed k) (reversed k) ?_ ?_ ?_ ?_ ?_
  · exact fun t _ => mem_range.2 (reversed_lt k t)
  · exact fun j _ => mem_range.2 (reversed_lt k j)
  · exact fun t ht => reversed_reversed (mem_range.1 ht)
  · exact fun j hj => reversed_reversed (mem_range.1 hj)
  · exact fun t _ => rfl

/-- **A transform computes values of a polynomial.**  Entry `i` is the value at the power `i` of the
root of the polynomial whose coefficients are the entries of the vector. -/
theorem vectorAt_transform {k : Nat} {root : Fp K} {a : Array (Fp K)} (size : a.size = 2 ^ k)
    (half : 0 < k → root ^ 2 ^ (k - 1) = -1) {i : Nat} (hi : i < 2 ^ k) :
    vectorAt (transform root a) i = ∑ j ∈ range (2 ^ k), vectorAt a j * root ^ (i * j) := by
  have hlog : a.size.log2 = k := by rw [size, Nat.log2_two_pow]
  have hpasses := vectorAt_passes root (size_bitReversal size) half le_rfl (q := 0)
    (Nat.two_pow_pos _) hi
  have hreorder : ∀ t ∈ range (2 ^ k),
      vectorAt (bitReversal a) t = vectorAt a (reversed k t) := by
    intro t ht
    refine vectorAt_of_getElem? ?_
    rw [getElem?_bitReversal size (mem_range.1 ht),
      getElem?_eq_vectorAt (by rw [size]; exact reversed_lt k t)]
  rw [transform, hlog, ← passes]
  rw [Nat.zero_mul, Nat.zero_add] at hpasses
  rw [hpasses, ← sum_reversed k fun j => vectorAt a j * root ^ (i * j)]
  refine sum_congr rfl fun t ht => ?_
  rw [Nat.zero_add, hreorder t ht, Nat.sub_self, pow_zero, pow_one]

theorem size_transform {k : Nat} {root : Fp K} {a : Array (Fp K)} (size : a.size = 2 ^ k) :
    (transform root a).size = 2 ^ k := by
  rw [transform, ← passes, size_passes, size_bitReversal size]

theorem isTwoPower_iff (n : Nat) : isTwoPower n = true ↔ ∃ k, n = 2 ^ k := by
  rw [isTwoPower, beq_iff_eq, Nat.one_shiftLeft]
  constructor
  · intro h
    exact ⟨n.log2, h.symm⟩
  · rintro ⟨k, rfl⟩
    rw [Nat.log2_two_pow]

theorem transform?_eq_some {k : Nat} (root : Fp K) {a : Array (Fp K)} (size : a.size = 2 ^ k) :
    transform? root a = some (transform root a) := by
  rw [transform?, if_pos ((isTwoPower_iff _).2 ⟨k, size⟩)]

end Groth16
