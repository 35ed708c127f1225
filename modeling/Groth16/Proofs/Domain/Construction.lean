import Groth16.Proofs.Domain.Interpolation
import Groth16.Proofs.Field.Known

/-!
# Which domains are built

A domain is asked for by a number of points, which is rounded up to a power of two.  Over a field
whose constants are right, there is one exactly if the field has roots of unity for this power, and
what is built is never refused by its own check.

* `Domain.twoPowersFrom`: the powers of two that a size may be rounded up to.
* `Domain.Complete`: the points of a domain are all roots of its vanishing polynomial, each listed
  once, and the coset avoids them.
* `Domain.Valid.complete`: valid domains that can be held in memory are complete.
* `Domain.exists_ofSize`: over a field with roots of unity, all sizes up to the largest are built.
* `Domain.ofSize_of_large`: what is reported of larger sizes.
* `Domain.size_le_maxListed`: with less than `2 ^ 58` points, a domain can be held in memory.
* `Domain.ofSize_exact`: all of this, for the scalar fields of the two curves.
-/

set_option autoImplicit false

namespace Groth16

open Polynomial

variable {K : PrimeField}

namespace Domain

/-! ## Sizes -/

/-- The powers of two that are not below `n`. -/
def twoPowersFrom (n : Nat) : Set Nat := {m | n ≤ m ∧ ∃ k, m = 2 ^ k}

/-- Sizes are rounded up to the next power of two. -/
theorem isLeast_two_pow_sizeExponent (n : Nat) :
    IsLeast (twoPowersFrom n) (2 ^ sizeExponent n) := by
  refine ⟨⟨le_two_pow_sizeExponent n, _, rfl⟩, ?_⟩
  rintro _ ⟨hle, k, rfl⟩
  exact Nat.pow_le_pow_right Nat.zero_lt_two (sizeExponent_le_iff.2 hle)

/-! ## The points -/

/-- The points of the domain are the roots of its vanishing polynomial, each listed once, and this
polynomial takes one value at all points of the coset, which is not zero. -/
structure Complete (d : Domain K) : Prop where
  /-- The points can be held in memory. -/
  listed : d.listElements = .ok d.elements
  /-- There are as many as the size says. -/
  length : d.elements.length = d.size
  /-- They are distinct. -/
  nodup : d.elements.Nodup
  /-- They are the roots of `X ^ N - 1`. -/
  mem_iff : ∀ x, x ∈ d.elements ↔ d.vanishing.IsRoot x
  /-- No point of the coset is among them. -/
  coset_notMem : ∀ i, d.shift * d.root ^ i ∉ d.elements
  /-- On the coset, the vanishing polynomial is constant. -/
  vanishingAt_coset : ∀ i, d.vanishingAt (d.shift * d.root ^ i) = d.vanishingOnCoset
  /-- The constant is not zero. -/
  vanishingOnCoset_ne_zero : d.vanishingOnCoset ≠ 0

section
variable [Fact K.modulus.Prime] {d : Domain K}

namespace Valid

omit [Fact K.modulus.Prime] in
theorem nodup_elements (h : d.Valid) : d.elements.Nodup := by
  rw [List.nodup_iff_getElem?_ne_getElem?]
  intro i j hij hj heq
  rw [elements, length_powers] at hj
  have hi : i < d.size := hij.trans hj
  rw [elements, getElem?_powers 1 d.root hi, getElem?_powers 1 d.root hj, one_mul, one_mul,
    Option.some.injEq] at heq
  exact hij.ne (h.primitive.pow_inj hi hj heq)

/-- **Valid domains are complete**, if their points can be held in memory. -/
theorem complete (h : d.Valid) (listed : d.size ≤ maxListed) : d.Complete where
  listed := if_pos listed
  length := length_powers 1 d.root d.size
  nodup := h.nodup_elements
  mem_iff x := by
    rw [h.mem_elements_iff, IsRoot.def, eval_vanishing, vanishingAt, sub_eq_zero]
  coset_notMem := h.coset_notMem_elements
  vanishingAt_coset := h.vanishingAt_coset
  vanishingOnCoset_ne_zero := h.vanishingOnCoset_ne_zero

end Valid

end

/-! ## Construction -/

/-- The check passes a root of the order of the size, with a shift outside of the subgroup. -/
theorem validate_of_orderOf [Fact K.modulus.Prime] {d : Domain K} (size : d.size ≠ 0)
    (order : orderOf d.root = d.size) (outside : d.shift ^ d.size ≠ 1) :
    d.validate = .ok () := by
  refine validate_eq_ok_iff.2 ⟨size, ?_, fun hlt => ?_, outside⟩
  · rw [← order, pow_orderOf_eq_one]
  · refine pow_ne_one_of_lt_orderOf ?_ ?_
    · omega
    · rw [order]
      omega

/-- Over a field with roots of unity, there is a domain for every number of points up to the largest
power of two that has roots. -/
theorem exists_ofSize (roots : K.HasRoots) (bits : K.twoAdicity < maxSizeBits) {n : Nat}
    (pos : 1 ≤ n) (le : n ≤ 2 ^ K.twoAdicity) : ∃ d, ofSize K n = .ok d := by
  have : Fact K.modulus.Prime := ⟨roots.prime⟩
  have hk : sizeExponent n ≤ K.twoAdicity := sizeExponent_le_iff.2 le
  obtain ⟨root, hroot, order⟩ := roots.exists_rootOfUnity? hk
  have hchecked :
      (⟨2 ^ sizeExponent n, root, Fp.ofNat K K.generator⟩ : Domain K).validate = .ok () :=
    validate_of_orderOf (Nat.two_pow_pos _).ne' order (roots.generator_pow_ne_one hk)
  rw [ofSize, if_neg (Nat.ne_of_gt pos)]
  simp only [if_neg (Nat.not_le_of_lt (hk.trans_lt bits)), hroot, Nat.one_shiftLeft, hchecked]
  exact ⟨_, rfl⟩

/-- A larger number of points is reported: as it is, if no size of so many bits is a power of two
above it, and else as the power that it is rounded up to. -/
theorem ofSize_of_large {n : Nat} (large : 2 ^ K.twoAdicity < n) :
    ofSize K n = .error (.tooLarge (if n ≤ 2 ^ 63 then 2 ^ sizeExponent n else n)) := by
  have hpos : n ≠ 0 := Nat.ne_of_gt (Nat.zero_lt_of_lt large)
  have hbits : maxSizeBits ≤ sizeExponent n ↔ ¬n ≤ 2 ^ 63 := by
    rw [← sizeExponent_le_iff, maxSizeBits]
    omega
  have hroot : K.rootOfUnity? (sizeExponent n) = none := by
    refine if_neg ?_
    rw [sizeExponent_le_iff]
    exact Nat.not_le_of_lt large
  rw [ofSize, if_neg hpos]
  by_cases hle : n ≤ 2 ^ 63
  · simp only [hbits, hle, hroot, Nat.one_shiftLeft, not_true, if_false, if_true]
  · simp only [hbits, hle, not_false_eq_true, if_true, if_false]

section
variable {d : Domain K} {n : Nat}

/-- The size that is reported is the power of two that `n` is rounded up to, or `n` itself. -/
theorem exists_ofSize_eq_tooLarge (large : 2 ^ K.twoAdicity < n) :
    ∃ m, ofSize K n = .error (.tooLarge m) ∧ (n ≤ 2 ^ 63 → IsLeast (twoPowersFrom n) m) ∧
      (2 ^ 63 < n → m = n) := by
  refine ⟨_, ofSize_of_large large, fun hle => ?_, fun hlt => if_neg (Nat.not_le_of_lt hlt)⟩
  rw [if_pos hle]
  exact isLeast_two_pow_sizeExponent n

/-- Exactly the sizes between one and the largest power of two that has roots are built. -/
theorem exists_ofSize_iff (roots : K.HasRoots) (bits : K.twoAdicity < maxSizeBits) :
    (∃ d, ofSize K n = .ok d) ↔ 1 ≤ n ∧ n ≤ 2 ^ K.twoAdicity := by
  constructor
  · rintro ⟨d, built⟩
    refine ⟨Nat.pos_of_ne_zero ?_, sizeExponent_le_iff.1 (ofSize_eq_ok built).2.1⟩
    rintro rfl
    cases built
  · rintro ⟨pos, le⟩
    exact exists_ofSize roots bits pos le

/-- The domains of a field have no more points than the power of two that it has roots for. -/
theorem size_le_two_pow_twoAdicity (built : ofSize K n = .ok d) :
    d.size ≤ 2 ^ K.twoAdicity := by
  obtain ⟨-, hadic, rfl, -⟩ := ofSize_eq_ok built
  exact Nat.pow_le_pow_right Nat.zero_lt_two hadic

/-- With less than `2 ^ 58` points, a domain can be held in memory. -/
theorem size_le_maxListed (built : ofSize K n = .ok d) (few : K.twoAdicity < 58) :
    d.size ≤ maxListed := by
  have hsize := size_le_two_pow_twoAdicity built
  have hpow : 2 ^ K.twoAdicity ≤ 2 ^ 57 := Nat.pow_le_pow_right Nat.zero_lt_two (by omega)
  exact (hsize.trans hpow).trans (by decide)

/-- What is built is complete, and its size is the next power of two. -/
theorem complete_of_ofSize [Fact K.modulus.Prime] (few : K.twoAdicity < 58)
    (built : ofSize K n = .ok d) : IsLeast (twoPowersFrom n) d.size ∧ d.Complete := by
  have hsize : d.size = 2 ^ sizeExponent n := by
    obtain ⟨-, -, rfl, -⟩ := ofSize_eq_ok built
    rfl
  refine ⟨?_, (ofSize_valid built).1.complete (size_le_maxListed built few)⟩
  rw [hsize]
  exact isLeast_two_pow_sizeExponent n

/-- The errors of the check are not reported by the construction. -/
theorem ofSize_error_cases (roots : K.HasRoots) (bits : K.twoAdicity < maxSizeBits)
    {e : DomainError} (h : ofSize K n = .error e) : e = .emptySize ∨ ∃ m, e = .tooLarge m := by
  rcases Nat.eq_zero_or_pos n with rfl | pos
  · exact .inl (Except.error.inj h).symm
  · rcases Nat.lt_or_ge (2 ^ K.twoAdicity) n with large | le
    · rw [ofSize_of_large large] at h
      exact .inr ⟨_, (Except.error.inj h).symm⟩
    · obtain ⟨d, built⟩ := exists_ofSize roots bits pos le
      rw [built] at h
      cases h

/-- **Exactly the domains that the field has roots for are built.**  Over the scalar field of BN254,
whose largest power of two is `2 ^ 28`, and of BLS12-381, where it is `2 ^ 32`, a domain is built for
every number of points from one up to this power.  Its size is the least power of two that is not
below, and it is complete.  No points at all, and more points than that, are reported as such, and
nothing else is reported: the check of the parts never fails on what is built. -/
theorem ofSize_exact {a : Nat}
    (known : K = bn254Scalar ∧ a = 28 ∨ K = bls12381Scalar ∧ a = 32) (n : Nat) :
    ((∃ d, ofSize K n = .ok d) ↔ 1 ≤ n ∧ n ≤ 2 ^ a) ∧
    (∀ d, ofSize K n = .ok d → IsLeast (twoPowersFrom n) d.size ∧ d.Complete) ∧
    (n = 0 → ofSize K n = .error .emptySize) ∧
    (2 ^ a < n → ∃ m, ofSize K n = .error (.tooLarge m) ∧
      (n ≤ 2 ^ 63 → IsLeast (twoPowersFrom n) m) ∧ (2 ^ 63 < n → m = n)) ∧
    ∀ e, ofSize K n = .error e → e = .emptySize ∨ ∃ m, e = .tooLarge m := by
  obtain ⟨roots, few, rfl⟩ : K.HasRoots ∧ K.twoAdicity < 58 ∧ K.twoAdicity = a := by
    rcases known with ⟨rfl, rfl⟩ | ⟨rfl, rfl⟩
    · exact ⟨hasRoots_bn254Scalar, by decide, rfl⟩
    · exact ⟨hasRoots_bls12381Scalar, by decide, rfl⟩
  have : Fact K.modulus.Prime := ⟨roots.prime⟩
  have bits : K.twoAdicity < maxSizeBits := few.trans (by decide)
  refine ⟨exists_ofSize_iff roots bits, fun d built => complete_of_ofSize few built, ?_,
    exists_ofSize_eq_tooLarge, fun e he => ofSize_error_cases roots bits he⟩
  rintro rfl
  rfl

/-- The largest domain of scalars of BLS12-381 is built, and one point more is reported with the size
that it is rounded up to. -/
theorem ofSize_exact_largest :
    (∃ d : Domain bls12381Scalar, ofSize bls12381Scalar (2 ^ 32 - 1) = .ok d ∧
      IsLeast (twoPowersFrom (2 ^ 32 - 1)) d.size ∧ d.Complete) ∧
    ∃ m, ofSize bls12381Scalar (2 ^ 32 + 1) = .error (.tooLarge m) ∧
      IsLeast (twoPowersFrom (2 ^ 32 + 1)) m := by
  obtain ⟨exists_iff, complete, -⟩ := ofSize_exact (.inr ⟨rfl, rfl⟩) (2 ^ 32 - 1)
  obtain ⟨-, -, -, tooLarge, -⟩ := ofSize_exact (.inr ⟨rfl, rfl⟩) (2 ^ 32 + 1)
  obtain ⟨d, built⟩ := exists_iff.2 (by decide)
  obtain ⟨m, reported, least, -⟩ := tooLarge (by decide)
  exact ⟨⟨d, built, complete d built⟩, m, reported, least (by decide)⟩

end

end Domain

end Groth16
