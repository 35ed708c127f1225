import Mathlib.Data.Nat.Bitwise
import Mathlib.Tactic.Ring
import Groth16.Domain.Transform

/-!
# The reordering of a transform

A transform first exchanges every entry with the one at the position whose bits are reversed.  The
positions are enumerated by a counter that is held in reverse and counts from its highest bit down.
This file shows that the counter counts, and that the exchanges, each made when the smaller of two
positions comes up, move every entry.

* `reversed k i`: the number whose `k` bits are those of `i` in reverse (`testBit_reversed`); an
  involution below `2 ^ k` (`reversed_reversed`).
* `clearRun_reversed`, `reversedNext_reversed`: the run of ones that is cleared ends at a bit of the
  counter, and setting this bit goes from the reverse of `i` to the reverse of `i + 1`.
* `reversalAfter`: the counter and the vector after a number of steps.
* `ReversedUpTo`: the invariant of the steps; after step `m` exactly those entries have moved whose
  position, or the reverse of it, is at most `m`.  It holds at the beginning (`reversedUpTo_zero`),
  a step keeps it (`ReversedUpTo.step`), and so it holds after every number of steps
  (`reversedUpTo_after`).
* `getElem?_bitReversal`: in the end position `i` holds the entry of the reverse of `i`.
* `bitReversal_reverses`: all of this together.
-/

set_option autoImplicit false

namespace Groth16

/-! ## Reversed bits -/

/-- The number whose `k` bits are the `k` lowest bits of `i` in reverse. -/
def reversed : Nat → Nat → Nat
  | 0, _ => 0
  | k + 1, i => i % 2 * 2 ^ k + reversed k (i / 2)

theorem reversed_lt (k i : Nat) : reversed k i < 2 ^ k := by
  induction k generalizing i with
  | zero => exact Nat.one_pos
  | succ k ih =>
    have hrest := ih (i / 2)
    have hlow : i % 2 * 2 ^ k ≤ 1 * 2 ^ k :=
      Nat.mul_le_mul_right _ (Nat.le_of_lt_succ (Nat.mod_lt i Nat.zero_lt_two))
    rw [reversed, pow_succ]
    omega

theorem reversed_zero (k : Nat) : reversed k 0 = 0 := by
  induction k with
  | zero => rfl
  | succ k ih => rw [reversed, Nat.zero_mod, Nat.zero_mul, Nat.zero_div, ih]

/-- The bits of the reverse are the bits of the number, in reverse. -/
theorem testBit_reversed {k b : Nat} (i : Nat) (h : b < k) :
    (reversed k i).testBit b = i.testBit (k - 1 - b) := by
  induction k generalizing i with
  | zero => exact absurd h (Nat.not_lt_zero b)
  | succ k ih =>
    rw [reversed, Nat.mul_comm, Nat.testBit_two_pow_mul_add _ (reversed_lt k (i / 2))]
    split
    · next below =>
      have hbit : k + 1 - 1 - b = k - 1 - b + 1 := by omega
      rw [ih (i / 2) below, hbit, Nat.testBit_succ]
    · -- The highest bit of the reverse is the lowest of the number.
      obtain rfl : b = k := by omega
      rw [Nat.sub_self, Nat.add_sub_cancel, Nat.sub_self, Nat.testBit_zero, Nat.testBit_zero,
        Nat.mod_mod]

/-- The highest bit of a number is the lowest of its reverse. -/
theorem reversed_succ' (k i : Nat) :
    reversed (k + 1) i = 2 * reversed k (i % 2 ^ k) + i / 2 ^ k % 2 := by
  induction k generalizing i with
  | zero => simp [reversed]
  | succ k ih =>
    have hmod : i % 2 ^ (k + 1) % 2 = i % 2 :=
      Nat.mod_mod_of_dvd i (Dvd.intro_left _ (pow_succ 2 k).symm)
    have hhalf : i % 2 ^ (k + 1) / 2 = i / 2 % 2 ^ k := by
      rw [pow_succ', Nat.mod_mul_right_div_self]
    have hdiv : i / 2 / 2 ^ k = i / 2 ^ (k + 1) := by
      rw [Nat.div_div_eq_div_mul, ← pow_succ']
    rw [reversed, ih, reversed, hmod, hhalf, hdiv, pow_succ]
    ring

/-- Reversing twice changes nothing. -/
theorem reversed_reversed {k i : Nat} (h : i < 2 ^ k) : reversed k (reversed k i) = i := by
  induction k generalizing i with
  | zero => exact (Nat.lt_one_iff.1 h).symm
  | succ k ih =>
    rw [pow_succ] at h
    have hlt := reversed_lt k (i / 2)
    have hmod : reversed (k + 1) i % 2 ^ k = reversed k (i / 2) := by
      rw [reversed, Nat.mul_add_mod_of_lt hlt]
    have hdiv : reversed (k + 1) i / 2 ^ k = i % 2 := by
      rw [reversed, Nat.mul_comm, Nat.mul_add_div (Nat.two_pow_pos k), Nat.div_eq_of_lt hlt,
        Nat.add_zero]
    rw [reversed_succ', hmod, hdiv, ih (by omega)]
    omega

/-- The reverse of a number in the lower half. -/
theorem reversed_succ_of_lt {k i : Nat} (h : i < 2 ^ k) :
    reversed (k + 1) i = 2 * reversed k i := by
  rw [reversed_succ', Nat.mod_eq_of_lt h, Nat.div_eq_of_lt h]
  rfl

/-- The reverse of a number in the upper half. -/
theorem reversed_succ_add {k i : Nat} (h : i < 2 ^ k) :
    reversed (k + 1) (2 ^ k + i) = 2 * reversed k i + 1 := by
  rw [reversed_succ', Nat.add_mod_left, Nat.mod_eq_of_lt h, Nat.add_div_left _ (Nat.two_pow_pos k),
    Nat.div_eq_of_lt h]

/-! ## The counter -/

theorem and_two_pow_of_lt {j b : Nat} (h : j < 2 ^ b) : j &&& 2 ^ b = 0 := by
  rw [Nat.and_two_pow, Nat.testBit_lt_two_pow h]
  simp

theorem and_two_pow_add {j b : Nat} (h : j < 2 ^ b) : (2 ^ b + j) &&& 2 ^ b ≠ 0 := by
  have hbit : (2 ^ b + j).testBit b = true := by
    rw [Nat.testBit_two_pow_add_eq, Nat.testBit_lt_two_pow h]
    rfl
  rw [Nat.and_two_pow, hbit]
  exact Nat.mul_ne_zero Nat.one_ne_zero (Nat.two_pow_pos b).ne'

theorem xor_two_pow_of_lt {j b : Nat} (h : j < 2 ^ b) : j ^^^ 2 ^ b = 2 ^ b + j := by
  have hor : 2 ^ b + j = 2 ^ b ||| j := by
    have := Nat.two_pow_add_eq_or_of_lt h 1
    rwa [Nat.mul_one] at this
  refine Nat.eq_of_testBit_eq fun i => ?_
  rw [hor, Nat.testBit_xor, Nat.testBit_or, Nat.testBit_two_pow]
  by_cases hi : b = i
  · subst hi
    simp [Nat.testBit_lt_two_pow h]
  · simp [hi]

theorem xor_two_pow_add {j b : Nat} (h : j < 2 ^ b) : (2 ^ b + j) ^^^ 2 ^ b = j := by
  rw [← xor_two_pow_of_lt h, Nat.xor_assoc, Nat.xor_self, Nat.xor_zero]

theorem two_pow_shiftRight_one (b : Nat) : 2 ^ (b + 1) >>> 1 = 2 ^ b := by
  rw [Nat.shiftRight_eq_div_pow, pow_one, pow_succ, Nat.mul_div_cancel _ Nat.zero_lt_two]

/-- The run that is cleared ends at a bit of the counter, as long as the counter is not at its end.
Setting this bit is counting on. -/
theorem clearRun_reversed {b i : Nat} (h : i + 1 < 2 ^ (b + 1)) :
    (clearRun (reversed (b + 1) i) (2 ^ b)).2 ≠ 0 ∧
      (clearRun (reversed (b + 1) i) (2 ^ b)).1 ^^^ (clearRun (reversed (b + 1) i) (2 ^ b)).2 =
        reversed (b + 1) (i + 1) := by
  induction b generalizing i with
  | zero =>
    obtain rfl : i = 0 := by omega
    rw [clearRun]
    simp [reversed]
  | succ b ih =>
    have hlt := reversed_lt (b + 1) (i / 2)
    have hnow : reversed (b + 2) i = i % 2 * 2 ^ (b + 1) + reversed (b + 1) (i / 2) := rfl
    have hnext : reversed (b + 2) (i + 1) =
        (i + 1) % 2 * 2 ^ (b + 1) + reversed (b + 1) ((i + 1) / 2) := rfl
    rcases Nat.mod_two_eq_zero_or_one i with heven | hodd
    · -- The highest bit of the counter is free.
      have hmod : (i + 1) % 2 = 1 ∧ (i + 1) / 2 = i / 2 := by omega
      rw [hnow, hnext, heven, hmod.1, hmod.2, Nat.zero_mul, Nat.zero_add, Nat.one_mul, clearRun,
        dif_neg (not_not.2 (and_two_pow_of_lt hlt)), xor_two_pow_of_lt hlt]
      exact ⟨(Nat.two_pow_pos _).ne', rfl⟩
    · -- The highest bit of the counter is carried over to the bits below.
      have hmod : (i + 1) % 2 = 0 ∧ (i + 1) / 2 = i / 2 + 1 := by omega
      have hhalf : i / 2 + 1 < 2 ^ (b + 1) := by
        rw [pow_succ] at h
        omega
      rw [hnow, hnext, hodd, hmod.1, hmod.2, Nat.one_mul, Nat.zero_mul, Nat.zero_add, clearRun,
        dif_pos (and_two_pow_add hlt), xor_two_pow_add hlt, two_pow_shiftRight_one]
      exact ih hhalf

/-- The same for the run that starts at the highest bit of a counter below `2 ^ k`, whatever `k`. -/
theorem clearRun_half {k i : Nat} (h : i + 1 < 2 ^ k) :
    (clearRun (reversed k i) (2 ^ k >>> 1)).2 ≠ 0 ∧
      (clearRun (reversed k i) (2 ^ k >>> 1)).1 ^^^ (clearRun (reversed k i) (2 ^ k >>> 1)).2 =
        reversed k (i + 1) := by
  cases k with
  | zero => exact absurd (Nat.lt_of_succ_lt_succ h) (Nat.not_lt_zero i)
  | succ b =>
    rw [two_pow_shiftRight_one]
    exact clearRun_reversed h

/-- **The counter counts**: after the reverse of `i` comes the reverse of `i + 1`. -/
theorem reversedNext_reversed {k i : Nat} (h : i + 1 < 2 ^ k) :
    reversedNext (2 ^ k) (reversed k i) = reversed k (i + 1) :=
  (clearRun_half h).2

/-! ## The exchanges -/

section
variable {α : Type}

/-- The entry at position `p` after step `m`: it has moved if its position, or the reverse of it, is
at most `m`. -/
def swappedUpTo (k m : Nat) (a : Array α) (p : Nat) : Option α :=
  if min p (reversed k p) ≤ m then a[reversed k p]? else a[p]?

theorem getElem?_swapIfInBounds {a : Array α} {i j : Nat} (hi : i < a.size) (hj : j < a.size)
    (p : Nat) :
    (a.swapIfInBounds i j)[p]? = if j = p then a[i]? else if i = p then a[j]? else a[p]? := by
  rw [Array.swapIfInBounds_def, dif_pos hi, dif_pos hj, Array.getElem?_swap,
    Array.getElem?_eq_getElem hi, Array.getElem?_eq_getElem hj]

/-- An exchange when position `m + 1` comes up moves exactly the entries that are due. -/
theorem swappedUpTo_succ {k m : Nat} {a b : Array α} (size : b.size = 2 ^ k) (h : m + 1 < 2 ^ k)
    (hb : ∀ p < 2 ^ k, b[p]? = swappedUpTo k m a p) {p : Nat} (hp : p < 2 ^ k) :
    (if m + 1 < reversed k (m + 1) then b.swapIfInBounds (m + 1) (reversed k (m + 1)) else b)[p]? =
      swappedUpTo k (m + 1) a p := by
  have hj := reversed_lt k (m + 1)
  have hback := reversed_reversed h
  have hpback := reversed_reversed hp
  split
  · next less =>
    rw [getElem?_swapIfInBounds (by rwa [size]) (by rwa [size])]
    by_cases hpj : reversed k (m + 1) = p
    · subst hpj
      rw [if_pos rfl, hb _ h, swappedUpTo, swappedUpTo, hback, if_neg (by omega), if_pos (by omega)]
    · rw [if_neg hpj]
      by_cases hpi : m + 1 = p
      · subst hpi
        rw [if_pos rfl, hb _ hj, swappedUpTo, swappedUpTo, hback, if_neg (by omega),
          if_pos (by omega)]
      · -- Neither the position nor its reverse is the one that comes up.
        have hne : reversed k p ≠ m + 1 := fun heq => hpj (by rw [← heq, hpback])
        have hiff : min p (reversed k p) ≤ m ↔ min p (reversed k p) ≤ m + 1 := by omega
        rw [if_neg hpi, hb p hp, swappedUpTo, swappedUpTo]
        simp only [hiff]
  · next notLess =>
    rw [hb p hp, swappedUpTo, swappedUpTo]
    by_cases hmin : min p (reversed k p) ≤ m
    · rw [if_pos hmin, if_pos (by omega)]
    · rw [if_neg hmin]
      split
      · next hle =>
        -- The position that comes up is its own reverse.
        have hself : reversed k p = p := by
          by_cases hpi : p = m + 1
          · subst hpi
            omega
          · have heq : reversed k p = m + 1 := by omega
            rw [heq] at hpback hmin
            omega
        rw [hself]
      · rfl

/-! ## The steps -/

/-- The counter and the vector after step `m` of the reordering. -/
def reversalAfter (a : Array α) (m : Nat) : Nat × Array α :=
  (List.range' 1 m).foldl (reversalStep a.size) (0, a)

theorem reversalAfter_succ (a : Array α) (m : Nat) :
    reversalAfter a (m + 1) = reversalStep a.size (reversalAfter a m) (m + 1) := by
  rw [reversalAfter, List.range'_1_concat, List.foldl_append, List.foldl_cons, List.foldl_nil,
    Nat.add_comm 1 m, reversalAfter]

/-- The reordering is all of its steps. -/
theorem bitReversal_eq_after (a : Array α) : bitReversal a = (reversalAfter a (a.size - 1)).2 :=
  rfl

/-- The invariant of the steps: what holds of the counter and the vector after step `m`. -/
structure ReversedUpTo (k m : Nat) (a : Array α) (state : Nat × Array α) : Prop where
  /-- The counter is the reverse of the number of the step. -/
  counter : state.1 = reversed k m
  /-- The vector keeps its length. -/
  size : state.2.size = 2 ^ k
  /-- Exactly the entries that are due have moved. -/
  entries : ∀ p < 2 ^ k, state.2[p]? = swappedUpTo k m a p

/-- Before the first step only the entry at position zero is due, which stays. -/
theorem reversedUpTo_zero {k : Nat} {a : Array α} (size : a.size = 2 ^ k) :
    ReversedUpTo k 0 a (0, a) where
  counter := (reversed_zero k).symm
  size := size
  entries p hp := by
    rw [swappedUpTo]
    split
    · next hmin =>
      have hself : reversed k p = p := by
        rcases Nat.min_eq_zero_iff.1 (Nat.le_zero.1 hmin) with hp0 | hrev
        · rw [hp0, reversed_zero]
        · have hback := reversed_reversed hp
          rw [hrev, reversed_zero] at hback
          rw [hrev, hback]
      rw [hself]
    · rfl

/-- A step keeps the invariant. -/
theorem ReversedUpTo.step {k m : Nat} {a : Array α} {state : Nat × Array α}
    (inv : ReversedUpTo k m a state) (h : m + 1 < 2 ^ k) :
    ReversedUpTo k (m + 1) a (reversalStep (2 ^ k) state (m + 1)) := by
  rw [reversalStep, inv.counter, reversedNext_reversed h]
  refine ⟨rfl, ?_, fun p hp => swappedUpTo_succ inv.size h inv.entries hp⟩
  dsimp only
  split
  · rw [Array.size_swapIfInBounds, inv.size]
  · exact inv.size

/-- The invariant holds after every step. -/
theorem reversedUpTo_after {k m : Nat} {a : Array α} (size : a.size = 2 ^ k) (h : m < 2 ^ k) :
    ReversedUpTo k m a (reversalAfter a m) := by
  induction m with
  | zero => exact reversedUpTo_zero size
  | succ m ih =>
    rw [reversalAfter_succ, size]
    exact (ih (Nat.lt_of_succ_lt h)).step h

/-- The invariant holds at the end of the reordering. -/
theorem reversedUpTo_bitReversal {k : Nat} {a : Array α} (size : a.size = 2 ^ k) :
    ReversedUpTo k (2 ^ k - 1) a (reversalAfter a (a.size - 1)) := by
  rw [size]
  exact reversedUpTo_after size (Nat.sub_lt (Nat.two_pow_pos k) Nat.one_pos)

/-- **The reordering moves every entry** to the position whose bits are reversed. -/
theorem getElem?_bitReversal {k : Nat} {a : Array α} (size : a.size = 2 ^ k) {p : Nat}
    (hp : p < 2 ^ k) : (bitReversal a)[p]? = a[reversed k p]? := by
  have hmin : min p (reversed k p) ≤ 2 ^ k - 1 := by omega
  rw [bitReversal_eq_after, (reversedUpTo_bitReversal size).entries p hp, swappedUpTo, if_pos hmin]

theorem size_bitReversal {k : Nat} {a : Array α} (size : a.size = 2 ^ k) :
    (bitReversal a).size = 2 ^ k :=
  (reversedUpTo_bitReversal size).size

/-- **The reordering reverses the bits of positions.**  Take a vector of `2 ^ k` entries, for any
`k`.  In the end position `i` holds the entry that was at the reverse of `i`, the number below
`2 ^ k` whose `k` bits are those of `i` in reverse.  After step `i` the counter is the reverse of
`i`, so that both positions of an exchange are in the vector, and the entries that have moved are
those whose position or its reverse is at most `i`.  In every step the run of ones that is cleared
ends at a bit of the counter, before it has run past the lowest one. -/
theorem bitReversal_reverses {k : Nat} {a : Array α} (size : a.size = 2 ^ k) :
    (∀ i < 2 ^ k, reversed k i < 2 ^ k ∧
      (∀ b < k, (reversed k i).testBit b = i.testBit (k - 1 - b)) ∧
      (bitReversal a)[i]? = a[reversed k i]?) ∧
    (bitReversal a).size = 2 ^ k ∧
    (∀ i < 2 ^ k, (reversalAfter a i).1 = reversed k i ∧ (reversalAfter a i).2.size = 2 ^ k ∧
      ∀ p < 2 ^ k, (reversalAfter a i).2[p]? =
        if min p (reversed k p) ≤ i then a[reversed k p]? else a[p]?) ∧
    bitReversal a = (reversalAfter a (2 ^ k - 1)).2 ∧
    ∀ i, i + 1 < 2 ^ k → (clearRun (reversalAfter a i).1 (2 ^ k >>> 1)).2 ≠ 0 := by
  refine ⟨fun i hi => ⟨reversed_lt k i, fun b hb => testBit_reversed i hb,
    getElem?_bitReversal size hi⟩, size_bitReversal size, fun i hi => ?_, ?_, fun i hi => ?_⟩
  · have inv := reversedUpTo_after size hi
    exact ⟨inv.counter, inv.size, inv.entries⟩
  · rw [bitReversal_eq_after, size]
  · rw [(reversedUpTo_after size (Nat.lt_of_succ_lt hi)).counter]
    exact (clearRun_half hi).1

/-- Eight entries, each its own position.  The step from the reverse `6` of `3` to the reverse `1`
of `4` carries over two bits. -/
theorem bitReversal_reverses_sample :
    (∀ i < 8, (bitReversal #[0, 1, 2, 3, 4, 5, 6, 7])[i]? = #[0, 4, 2, 6, 1, 5, 3, 7][i]?) ∧
      (reversalAfter #[0, 1, 2, 3, 4, 5, 6, 7] 3).1 = 6 ∧
      (clearRun (reversalAfter #[0, 1, 2, 3, 4, 5, 6, 7] 3).1 (8 >>> 1)).2 ≠ 0 ∧
      (reversalAfter #[0, 1, 2, 3, 4, 5, 6, 7] 4).1 = 1 := by
  have table : ∀ i < 8, #[0, 1, 2, 3, 4, 5, 6, 7][reversed 3 i]? =
      #[0, 4, 2, 6, 1, 5, 3, 7][i]? := by decide
  obtain ⟨moved, -, steps, -, ends⟩ :=
    bitReversal_reverses (k := 3) (a := #[0, 1, 2, 3, 4, 5, 6, 7]) rfl
  refine ⟨fun i hi => ?_, (steps 3 (by decide)).1, ends 3 (by decide), (steps 4 (by decide)).1⟩
  rw [(moved i hi).2.2, table i hi]

end

end Groth16
