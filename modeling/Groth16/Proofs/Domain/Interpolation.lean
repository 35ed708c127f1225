import Mathlib.LinearAlgebra.Lagrange
import Mathlib.RingTheory.RootsOfUnity.PrimitiveRoots
import Groth16.Domain.Basic
import Groth16.Proofs.Domain.Transform

/-!
# Domains and polynomials

A vector over a domain stands for a polynomial of degree below the size of the domain, either by its
coefficients or by its values.  This file says which domains there are, and that the four transforms
and the Lagrange basis convert between the two.

* `Domain.vanishing`: the polynomial `X ^ N - 1` of a domain of `N` points.
* `Domain.Valid`: the size is a power of two, the root has exactly this order, and the coset of the
  shift avoids the subgroup.
* `Domain.Valid.of_validate`: which domains that pass the check are valid.
* `Domain.ofSize_valid`: every domain that is built is valid.
* `polynomialOf`: the polynomial with the entries of a vector as coefficients.
* `Domain.Valid.mem_elements_iff`: the points of the domain are the roots of unity of its size.
* `Domain.Valid.ntt_ok`, `cosetNtt_ok`, `intt_ok`, `cosetIntt_ok`: what the transforms give.
* `Domain.Valid.eq_of_eval_eq`: polynomials of degree below the size of the domain that agree on the
  subgroup, or on the coset, are equal.
* `Domain.Valid.sum_lagrangeAt`: the Lagrange basis gives the value of the interpolating polynomial.
-/

set_option autoImplicit false

namespace Groth16

variable {K : PrimeField}

open Finset Polynomial

/-! ## Polynomials of vectors -/

/-- The polynomial whose coefficients are the entries of the vector. -/
noncomputable def polynomialOf (a : Array (Fp K)) : (Fp K)[X] :=
  ∑ j ∈ range a.size, C (vectorAt a j) * X ^ j

theorem coeff_polynomialOf (a : Array (Fp K)) (i : Nat) :
    (polynomialOf a).coeff i = vectorAt a i := by
  rw [polynomialOf, finsetSum_coeff]
  simp only [coeff_C_mul_X_pow]
  rw [sum_ite_eq]
  split
  · rfl
  · next h =>
    rw [mem_range, not_lt] at h
    exact (vectorAt_of_size_le h).symm

theorem eval_polynomialOf (a : Array (Fp K)) (x : Fp K) :
    (polynomialOf a).eval x = ∑ j ∈ range a.size, vectorAt a j * x ^ j := by
  simp [polynomialOf, eval_finsetSum]

theorem degree_polynomialOf_lt (a : Array (Fp K)) : (polynomialOf a).degree < a.size := by
  rw [degree_lt_iff_coeff_zero]
  intro i hi
  rw [coeff_polynomialOf, vectorAt_of_size_le hi]

/-- The entries behind the degree may be cut off. -/
theorem polynomialOf_take {a : Array (Fp K)} {n : Nat} (h : (polynomialOf a).degree < n) :
    polynomialOf (a.take n) = polynomialOf a := by
  refine Polynomial.ext fun i => ?_
  rw [coeff_polynomialOf, vectorAt_take]
  split
  · exact (coeff_polynomialOf a i).symm
  · next hi =>
    refine (coeff_eq_zero_of_degree_lt (h.trans_le ?_)).symm
    exact_mod_cast Nat.le_of_not_lt hi

namespace Domain

/-! ## The vanishing polynomial -/

/-- The polynomial that vanishes on the domain. -/
noncomputable def vanishing (d : Domain K) : (Fp K)[X] := X ^ d.size - C 1

@[simp] theorem eval_vanishing (d : Domain K) (x : Fp K) :
    d.vanishing.eval x = d.vanishingAt x := by
  rw [vanishing, eval_sub, eval_pow, eval_X, eval_C, vanishingAt]

/-! ## Valid domains -/

/-- The size is a power of two, the root has exactly this order, and the coset of the shift avoids
the subgroup. -/
structure Valid (d : Domain K) : Prop where
  /-- The size is a power of two that fits into 64 bits. -/
  twoPower : ∃ k < 64, d.size = 2 ^ k
  /-- The root has exactly the order of the size. -/
  primitive : IsPrimitiveRoot d.root d.size
  /-- The shift is not zero. -/
  shift_ne_zero : d.shift ≠ 0
  /-- The shift is outside of the subgroup. -/
  shift_outside : d.shift ^ d.size ≠ 1

section
variable [prime : Fact K.modulus.Prime] {d : Domain K}

/-- What the check asks for. -/
theorem validate_eq_ok_iff : d.validate = .ok () ↔
    d.size ≠ 0 ∧ d.root ^ d.size = 1 ∧ (1 < d.size → d.root ^ (d.size / 2) ≠ 1) ∧
      d.shift ^ d.size ≠ 1 := by
  have houtside : d.contains d.shift = true ↔ d.shift ^ d.size = 1 := by
    rw [contains, vanishingAt, decide_eq_true_eq, sub_eq_zero]
  rw [validate]
  split
  · next hsize => simp [hsize]
  · next hsize =>
    split
    · next hone => simp [hone]
    · next hone =>
      split
      · next hhalf => simp [hhalf]
      · next hhalf =>
        split
        · next hshift => simp [houtside.1 hshift]
        · next hshift =>
          rw [houtside] at hshift
          exact iff_of_true rfl ⟨hsize, not_not.1 hone, fun hlt heq => hhalf ⟨hlt, heq⟩, hshift⟩

omit prime in
theorem sizeExponent_le_iff {n k : Nat} : sizeExponent n ≤ k ↔ n ≤ 2 ^ k := by
  rw [sizeExponent]
  split
  · next h => exact iff_of_true k.zero_le (h.trans Nat.one_le_two_pow)
  · have : (n - 1).log2 < k ↔ n - 1 < 2 ^ k := Nat.log2_lt (by omega)
    omega

omit prime in
theorem le_two_pow_sizeExponent (n : Nat) : n ≤ 2 ^ sizeExponent n :=
  sizeExponent_le_iff.1 le_rfl

omit prime in
/-- What a domain that is built consists of. -/
theorem ofSize_eq_ok {n : Nat} (h : ofSize K n = .ok d) :
    sizeExponent n < 64 ∧ sizeExponent n ≤ K.twoAdicity ∧
      d = ⟨2 ^ sizeExponent n,
        Fp.ofNat K K.generator ^ ((K.modulus - 1) / 2 ^ sizeExponent n),
        Fp.ofNat K K.generator⟩ ∧
      d.validate = .ok () := by
  rw [ofSize] at h
  split at h
  · cases h
  · dsimp only at h
    split at h
    · cases h
    · next hbits =>
      rw [PrimeField.rootOfUnity?] at h
      by_cases hadic : sizeExponent n ≤ K.twoAdicity
      · simp only [hadic, if_true, Nat.one_shiftLeft] at h
        generalize (⟨_, _, _⟩ : Domain K) = d' at h
        rcases hvalid : d'.validate with e | ⟨⟩
        · rw [hvalid] at h
          cases h
        · rw [hvalid] at h
          obtain rfl : d' = d := Except.ok.inj h
          exact ⟨by rw [maxSizeBits] at hbits; omega, hadic, rfl, hvalid⟩
      · simp only [hadic, if_false] at h
        cases h

/-- An element that is one exactly at its full power of two has this order. -/
theorem isPrimitiveRoot_of_half {root : Fp K} {k : Nat} (one : root ^ 2 ^ k = 1)
    (half : 0 < k → root ^ 2 ^ (k - 1) ≠ 1) : IsPrimitiveRoot root (2 ^ k) := by
  cases k with
  | zero =>
    rw [pow_zero, pow_one] at one
    rw [pow_zero, IsPrimitiveRoot.one_right_iff]
    exact one
  | succ k =>
    rw [IsPrimitiveRoot.iff_orderOf]
    exact orderOf_eq_prime_pow (half k.succ_pos) one

/-- A domain of a power of two points that passes the check is valid, if its shift is not zero. -/
theorem Valid.of_validate {k : Nat} (bits : k < 64) (size : d.size = 2 ^ k) (shift : d.shift ≠ 0)
    (checked : d.validate = .ok ()) : d.Valid := by
  obtain ⟨-, hone, hhalf, houtside⟩ := validate_eq_ok_iff.1 checked
  have hprimitive : IsPrimitiveRoot d.root (2 ^ k) := by
    rw [size] at hone hhalf
    refine isPrimitiveRoot_of_half hone fun hpos => ?_
    have hdiv : 2 ^ k / 2 = 2 ^ (k - 1) := by
      rw [← Nat.pow_div hpos Nat.zero_lt_two, pow_one]
    rw [← hdiv]
    exact hhalf (Nat.one_lt_two_pow hpos.ne')
  exact ⟨⟨k, bits, size⟩, by rwa [size], shift, houtside⟩

/-- **Every domain that is built is valid**, and has at least as many points as were asked for. -/
theorem ofSize_valid {n : Nat} (h : ofSize K n = .ok d) : d.Valid ∧ n ≤ d.size := by
  obtain ⟨hbits, -, rfl, hvalid⟩ := ofSize_eq_ok h
  refine ⟨.of_validate hbits rfl (fun hzero => ?_) hvalid, le_two_pow_sizeExponent n⟩
  obtain ⟨-, hone, hhalf, -⟩ := validate_eq_ok_iff.1 hvalid
  -- With the generator the root would be zero too, or one, and neither has the right order.
  change Fp.ofNat K K.generator = 0 at hzero
  rw [hzero] at hone hhalf
  by_cases hexp : (K.modulus - 1) / 2 ^ sizeExponent n = 0
  · rw [hexp, pow_zero, one_pow] at hhalf
    refine absurd rfl (hhalf ?_)
    have := K.one_lt_modulus
    rcases Nat.eq_zero_or_pos (sizeExponent n) with hk | hk
    · rw [hk, pow_zero, Nat.div_one] at hexp
      omega
    · exact Nat.one_lt_two_pow hk.ne'
  · rw [zero_pow hexp, zero_pow (Nat.two_pow_pos _).ne'] at hone
    exact zero_ne_one hone

/-! ## The points -/

namespace Valid

omit prime in
theorem size_pos (h : d.Valid) : 0 < d.size := by
  obtain ⟨k, -, hk⟩ := h.twoPower
  rw [hk]
  exact Nat.two_pow_pos k

omit prime in
theorem root_pow (h : d.Valid) (i : Nat) : (d.root ^ i) ^ d.size = 1 := by
  rw [← pow_mul, Nat.mul_comm, pow_mul, h.primitive.pow_eq_one, one_pow]

theorem root_ne_zero (h : d.Valid) : d.root ≠ 0 := h.primitive.ne_zero h.size_pos.ne'

/-- The size has an inverse in the field. -/
theorem natCast_size_ne_zero (h : d.Valid) : (d.size : Fp K) ≠ 0 := by
  have : NeZero d.size := ⟨h.size_pos.ne'⟩
  exact h.primitive.neZero'.out

/-- The root is a square root of one halfway to its order. -/
theorem half (h : d.Valid) {k : Nat} (hk : d.size = 2 ^ k) (pos : 0 < k) :
    d.root ^ 2 ^ (k - 1) = -1 := by
  have hlt : 2 ^ (k - 1) < d.size := by
    rw [hk]
    exact Nat.pow_lt_pow_right Nat.one_lt_two (by omega)
  have hsquare : d.root ^ 2 ^ (k - 1) * d.root ^ 2 ^ (k - 1) = 1 := by
    rw [← pow_add, ← Nat.two_mul, ← pow_succ', Nat.sub_add_cancel pos, ← hk,
      h.primitive.pow_eq_one]
  rcases mul_self_eq_one_iff.1 hsquare with hone | hneg
  · exact absurd hone (h.primitive.pow_ne_one_of_pos_of_lt (Nat.two_pow_pos _).ne' hlt)
  · exact hneg

omit prime in
/-- The points of the subgroup are distinct. -/
theorem injOn_root (h : d.Valid) : Set.InjOn (d.root ^ ·) (range d.size : Set Nat) := by
  intro i hi j hj heq
  exact h.primitive.pow_inj (mem_range.1 hi) (mem_range.1 hj) heq

/-- The points of the domain are the roots of unity of its size. -/
theorem mem_elements_iff (h : d.Valid) {x : Fp K} : x ∈ d.elements ↔ x ^ d.size = 1 := by
  constructor
  · intro hx
    obtain ⟨i, hi⟩ := List.getElem?_of_mem hx
    have hlt : i < d.size := by
      have := (List.getElem?_eq_some_iff.1 hi).1
      rwa [elements, length_powers] at this
    rw [elements, getElem?_powers 1 d.root hlt, one_mul, Option.some.injEq] at hi
    rw [← hi, h.root_pow]
  · intro hx
    have : NeZero d.size := ⟨h.size_pos.ne'⟩
    obtain ⟨i, hi, rfl⟩ := h.primitive.eq_pow_of_pow_eq_one hx
    refine List.mem_of_getElem? (i := i) ?_
    rw [elements, getElem?_powers 1 d.root hi, one_mul]

/-- The points of the coset are distinct. -/
theorem injOn_coset (h : d.Valid) : Set.InjOn (d.shift * d.root ^ ·) (range d.size : Set Nat) :=
  fun _ hi _ hj heq => h.injOn_root hi hj (mul_left_cancel₀ h.shift_ne_zero heq)

/-- No point of the coset is one of the subgroup. -/
theorem coset_notMem_elements (h : d.Valid) (i : Nat) : d.shift * d.root ^ i ∉ d.elements := by
  rw [h.mem_elements_iff, mul_pow, h.root_pow, mul_one]
  exact h.shift_outside

theorem vanishingAt_coset (h : d.Valid) (i : Nat) :
    d.vanishingAt (d.shift * d.root ^ i) = d.vanishingOnCoset := by
  rw [vanishingOnCoset, vanishingAt, vanishingAt, mul_pow, h.root_pow, mul_one]

omit prime in
theorem vanishingOnCoset_ne_zero (h : d.Valid) : d.vanishingOnCoset ≠ 0 :=
  sub_ne_zero.2 h.shift_outside

/-- Polynomials of degree below the size that agree on the points of a list are equal. -/
theorem eq_of_eval_eq {v : Nat → Fp K} (inj : Set.InjOn v (range d.size : Set Nat))
    {P Q : (Fp K)[X]} (hP : P.degree < d.size) (hQ : Q.degree < d.size)
    (h : ∀ i < d.size, P.eval (v i) = Q.eval (v i)) : P = Q :=
  eq_of_degrees_lt_of_eval_index_eq (range d.size) inj (by rwa [card_range]) (by rwa [card_range])
    fun i hi => h i (mem_range.1 hi)

/-! ## Transforms -/

/-- The sum of the powers of a root of unity, which is zero but for the root one. -/
theorem sum_pow_eq {x : Fp K} {n : Nat} (h : x ^ n = 1) :
    ∑ m ∈ range n, x ^ m = if x = 1 then (n : Fp K) else 0 := by
  split
  · next hx => simp [hx]
  · next hx =>
    have hgeom := geom_sum_mul x n
    rw [h, sub_self] at hgeom
    exact (mul_eq_zero.1 hgeom).resolve_right (sub_ne_zero.2 hx)

/-- From coefficients to the values over the subgroup. -/
theorem ntt_ok (h : d.Valid) {a : Array (Fp K)} (size : a.size = d.size) :
    ∃ b, d.ntt a = .ok b ∧ b.size = d.size ∧
      ∀ i < d.size, vectorAt b i = (polynomialOf a).eval (d.root ^ i) := by
  obtain ⟨k, -, hk⟩ := h.twoPower
  rw [hk] at size
  refine ⟨transform d.root a, ?_, (size_transform size).trans hk.symm, fun i hi => ?_⟩
  · rw [ntt, ofLength, if_neg (by rw [hk, size]; simp), transform?_eq_some d.root size]
    rfl
  · rw [hk] at hi
    rw [vectorAt_transform size (h.half hk) hi, eval_polynomialOf, size]
    simp only [pow_mul]

/-- From coefficients to the values over the coset. -/
theorem cosetNtt_ok (h : d.Valid) {a : Array (Fp K)} (size : a.size = d.size) :
    ∃ b, d.cosetNtt a = .ok b ∧ b.size = d.size ∧
      ∀ i < d.size, vectorAt b i = (polynomialOf a).eval (d.shift * d.root ^ i) := by
  obtain ⟨k, -, hk⟩ := h.twoPower
  rw [hk] at size
  have size' : (scaleByPowers d.shift a).size = 2 ^ k := by rw [size_scaleByPowers, size]
  refine ⟨transform d.root (scaleByPowers d.shift a), ?_, (size_transform size').trans hk.symm,
    fun i hi => ?_⟩
  · rw [cosetNtt, ofLength, if_neg (by rw [hk, size]; simp), transform?_eq_some d.root size']
    rfl
  · rw [hk] at hi
    rw [vectorAt_transform size' (h.half hk) hi, eval_polynomialOf, size]
    refine sum_congr rfl fun j _ => ?_
    rw [vectorAt_scaleByPowers, mul_pow, pow_mul, mul_assoc]

/-- Quotients of points of the subgroup are one exactly if the points are equal. -/
theorem root_pow_mul_inv_pow (h : d.Valid) {i j : Nat} (hi : i < d.size) (hj : j < d.size) :
    d.root ^ i * d.root⁻¹ ^ j = 1 ↔ j = i := by
  rw [inv_pow, mul_inv_eq_one₀ (pow_ne_zero _ h.root_ne_zero)]
  exact ⟨fun heq => (h.primitive.pow_inj hi hj heq).symm, fun heq => by rw [heq]⟩

/-- The entries of an inverse transform. -/
theorem vectorAt_inverseTransform (h : d.Valid) {e : Array (Fp K)} (size : e.size = d.size) :
    ∃ b, inverseTransform? d.root e = some b ∧ b.size = d.size ∧
      ∀ m < d.size, vectorAt b m =
        (∑ j ∈ range d.size, vectorAt e j * d.root⁻¹ ^ (m * j)) * (d.size : Fp K)⁻¹ := by
  obtain ⟨k, -, hk⟩ := h.twoPower
  have size' : e.size = 2 ^ k := size.trans hk
  have half : 0 < k → d.root⁻¹ ^ 2 ^ (k - 1) = -1 := by
    intro pos
    rw [inv_pow, h.half hk pos, inv_neg_one]
  have hsize : (Fp.ofNat K e.size : Fp K) ≠ 0 := by
    rw [Fp.ofNat_eq_natCast, size]
    exact h.natCast_size_ne_zero
  refine ⟨(transform d.root⁻¹ e).map (· * (d.size : Fp K)⁻¹), ?_, ?_, fun m hm => ?_⟩
  · rw [inverseTransform?, Fp.inverse?_eq_some h.root_ne_zero, Fp.inverse?_eq_some hsize]
    show (transform? d.root⁻¹ e).map _ = _
    rw [transform?_eq_some _ size', Fp.ofNat_eq_natCast, size]
    rfl
  · rw [Array.size_map, size_transform size', hk]
  · rw [hk] at hm
    have hentry := vectorAt_transform size' half hm
    rw [← hk] at hentry
    refine vectorAt_of_getElem? ?_
    rw [Array.getElem?_map, getElem?_eq_vectorAt (by rwa [size_transform size']), hentry]
    rfl

/-- The inverse transform gives coefficients of the given values. -/
theorem inverseTransform_ok (h : d.Valid) {e : Array (Fp K)} (size : e.size = d.size) :
    ∃ b, inverseTransform? d.root e = some b ∧ b.size = d.size ∧
      ∀ i < d.size, (polynomialOf b).eval (d.root ^ i) = vectorAt e i := by
  obtain ⟨b, hb, hsize, hentries⟩ := h.vectorAt_inverseTransform size
  refine ⟨b, hb, hsize, fun i hi => ?_⟩
  have hterm : ∀ m ∈ range d.size, vectorAt b m * (d.root ^ i) ^ m =
      ∑ j ∈ range d.size, vectorAt e j * (d.size : Fp K)⁻¹ * (d.root ^ i * d.root⁻¹ ^ j) ^ m := by
    intro m hm
    rw [hentries m (mem_range.1 hm), sum_mul, sum_mul]
    refine sum_congr rfl fun j _ => ?_
    rw [mul_pow, ← pow_mul d.root⁻¹, Nat.mul_comm m j]
    ring
  -- The sum over the coefficients is the size for the value asked for, and zero for the others.
  have hvalue : ∀ j ∈ range d.size,
      ∑ m ∈ range d.size, vectorAt e j * (d.size : Fp K)⁻¹ * (d.root ^ i * d.root⁻¹ ^ j) ^ m =
        if j = i then vectorAt e j else 0 := by
    intro j hj
    have hone : (d.root ^ i * d.root⁻¹ ^ j) ^ d.size = 1 := by
      rw [mul_pow, inv_pow, inv_pow, h.root_pow, h.root_pow, inv_one, mul_one]
    rw [← mul_sum, sum_pow_eq hone]
    simp only [h.root_pow_mul_inv_pow hi (mem_range.1 hj)]
    split
    · rw [mul_assoc, inv_mul_cancel₀ h.natCast_size_ne_zero, mul_one]
    · rw [mul_zero]
  rw [eval_polynomialOf, hsize, sum_congr rfl hterm, sum_comm, sum_congr rfl hvalue, sum_ite_eq',
    if_pos (mem_range.2 hi)]

/-- From the values over the subgroup to coefficients. -/
theorem intt_ok (h : d.Valid) {e : Array (Fp K)} (size : e.size = d.size) :
    ∃ b, d.intt e = .ok b ∧ b.size = d.size ∧
      ∀ i < d.size, (polynomialOf b).eval (d.root ^ i) = vectorAt e i := by
  obtain ⟨b, hb, hsize, hvalues⟩ := h.inverseTransform_ok size
  refine ⟨b, ?_, hsize, hvalues⟩
  rw [intt, ofLength, if_neg (not_not.2 size), hb]
  rfl

/-- From the values over the coset to coefficients. -/
theorem cosetIntt_ok (h : d.Valid) {e : Array (Fp K)} (size : e.size = d.size) :
    ∃ b, d.cosetIntt e = .ok b ∧ b.size = d.size ∧
      ∀ i < d.size, (polynomialOf b).eval (d.shift * d.root ^ i) = vectorAt e i := by
  obtain ⟨b, hb, hsize, hvalues⟩ := h.inverseTransform_ok size
  refine ⟨scaleByPowers d.shift⁻¹ b, ?_, by rw [size_scaleByPowers, hsize], fun i hi => ?_⟩
  · rw [cosetIntt, ofLength, if_neg (not_not.2 size), hb, Fp.inverse?_eq_some h.shift_ne_zero]
    rfl
  · rw [← hvalues i hi, eval_polynomialOf, eval_polynomialOf, size_scaleByPowers]
    refine sum_congr rfl fun j _ => ?_
    rw [vectorAt_scaleByPowers, mul_pow, inv_pow]
    field_simp [pow_ne_zero j h.shift_ne_zero]

/-! ## The Lagrange basis -/

omit prime in
/-- What the Lagrange basis at a point consists of. -/
theorem lagrangeAt_eq_ok {tau : Fp K} {ls : List (Fp K)} (h : d.lagrangeAt tau = .ok ls) :
    tau ^ d.size ≠ 1 ∧ ls = d.elements.map fun w =>
      w * (tau ^ d.size - 1) * (Fp.ofNat K d.size * (tau - w)).inverseOrZero := by
  rw [lagrangeAt, vanishingAt] at h
  split at h
  · cases h
  · next hz =>
    rw [listElements] at h
    split at h
    · exact ⟨fun hone => hz (sub_eq_zero.2 hone), (Except.ok.inj h).symm⟩
    · cases h

omit prime in
theorem length_lagrangeAt {tau : Fp K} {ls : List (Fp K)} (h : d.lagrangeAt tau = .ok ls) :
    ls.length = d.size := by
  rw [(lagrangeAt_eq_ok h).2, List.length_map, elements, length_powers]

/-- A Lagrange value is a sum of powers. -/
theorem lagrange_eq_sum (h : d.Valid) {tau w : Fp K} (hw : w ^ d.size = 1)
    (htau : tau ^ d.size ≠ 1) :
    w * (tau ^ d.size - 1) * ((d.size : Fp K) * (tau - w))⁻¹ =
      ∑ m ∈ range d.size, w⁻¹ ^ m * (d.size : Fp K)⁻¹ * tau ^ m := by
  have hw0 : w ≠ 0 := by
    rintro rfl
    rw [zero_pow h.size_pos.ne'] at hw
    exact zero_ne_one hw
  have hne : tau - w ≠ 0 := by
    intro heq
    rw [sub_eq_zero.1 heq] at htau
    exact htau hw
  have hgeom := geom_sum_mul (tau * w⁻¹) d.size
  rw [mul_pow, inv_pow, hw, inv_one, mul_one] at hgeom
  have hterm : ∀ m ∈ range d.size, w⁻¹ ^ m * (d.size : Fp K)⁻¹ * tau ^ m =
      (tau * w⁻¹) ^ m * (d.size : Fp K)⁻¹ := by
    intro m _
    rw [mul_pow]
    ring
  have hsize := h.natCast_size_ne_zero
  rw [sum_congr rfl hterm, ← sum_mul, ← hgeom]
  field_simp

theorem listAt_lagrangeAt (h : d.Valid) {tau : Fp K} {ls : List (Fp K)}
    (hls : d.lagrangeAt tau = .ok ls) {i : Nat} (hi : i < d.size) :
    listAt ls i = ∑ m ∈ range d.size, d.root⁻¹ ^ (m * i) * (d.size : Fp K)⁻¹ * tau ^ m := by
  obtain ⟨htau, rfl⟩ := lagrangeAt_eq_ok hls
  have hentry : d.elements[i]? = some (d.root ^ i) := by
    rw [elements, getElem?_powers 1 d.root hi, one_mul]
  refine listAt_of_getElem? ?_
  rw [List.getElem?_map, hentry, Option.map_some, Fp.inverseOrZero_eq_inv, Fp.ofNat_eq_natCast,
    h.lagrange_eq_sum (h.root_pow i) htau]
  congr 1
  refine sum_congr rfl fun m _ => ?_
  rw [← inv_pow, ← pow_mul, Nat.mul_comm i m]

/-- **The Lagrange basis gives the value of the interpolating polynomial.** -/
theorem sum_lagrangeAt (h : d.Valid) {tau : Fp K} {ls : List (Fp K)}
    (hls : d.lagrangeAt tau = .ok ls) {P : (Fp K)[X]} (hP : P.degree < d.size) :
    ∑ i ∈ range d.size, P.eval (d.root ^ i) * listAt ls i = P.eval tau := by
  -- The polynomial is the inverse transform of its values, whose entries are the inner sums.
  let values := (List.ofFn fun i : Fin d.size => P.eval (d.root ^ i.val)).toArray
  have size : values.size = d.size := by simp [values]
  have hvalues : ∀ i < d.size, vectorAt values i = P.eval (d.root ^ i) := by
    intro i hi
    exact vectorAt_of_getElem? (by simp [values, hi])
  obtain ⟨b, hb, hsize, hentries⟩ := h.vectorAt_inverseTransform size
  obtain ⟨b', hb', -, heval⟩ := h.inverseTransform_ok size
  obtain rfl : b = b' := Option.some.inj (hb.symm.trans hb')
  have hpoly : P = polynomialOf b := by
    refine eq_of_eval_eq h.injOn_root hP ?_ fun i hi => ?_
    · rw [← hsize]
      exact degree_polynomialOf_lt b
    · rw [heval i hi, hvalues i hi]
  have hterm : ∀ i ∈ range d.size, P.eval (d.root ^ i) * listAt ls i =
      ∑ m ∈ range d.size,
        vectorAt values i * d.root⁻¹ ^ (m * i) * (d.size : Fp K)⁻¹ * tau ^ m := by
    intro i hi
    rw [h.listAt_lagrangeAt hls (mem_range.1 hi), ← hvalues i (mem_range.1 hi), mul_sum]
    refine sum_congr rfl fun m _ => ?_
    ring
  rw [sum_congr rfl hterm, sum_comm, hpoly, eval_polynomialOf, hsize]
  refine sum_congr rfl fun m hm => ?_
  rw [hentries m (mem_range.1 hm), sum_mul, sum_mul]

end Valid

end

end Domain

end Groth16
