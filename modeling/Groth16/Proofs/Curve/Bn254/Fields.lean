import Mathlib.Tactic.NormNum.Prime
import Groth16.Curve.Bn254.Groups
import Groth16.Proofs.Field.Primality
import Groth16.Proofs.Field.Squares

/-!
# Square roots in the coordinate fields of BN254

A point is stored without its `y` coordinate, so reading it back rests on square roots: they must be
found wherever there is one, and there must be no more than two.

* `prime_base`: the modulus of the base field is prime.
* `Fq.mul_self_of_sqrt?`, `Fq.exists_sqrt?`: what the base field gives as a square root is one, and
  every square has one.
* `Fq2.mul_self_of_sqrt?`, `Fq2.exists_sqrt?`: the same of the field of degree two.
* `Fq2.eq_or_eq_neg_of_mul_self_eq`: there are no more than two roots.
* `Fq.cube_add_b1_ne_zero`: no point of the first curve lies on the `x` axis.
-/

set_option autoImplicit false

namespace Groth16.Bn254

/-! ## The modulus -/

/-- The primes below `2 ^ 14` that the certificate of the modulus goes back to. -/
def smallFactors : List Nat :=
  [2, 3, 5, 7, 11, 13, 17, 19, 29, 37, 41, 67, 73, 89, 109, 229, 233, 271, 311, 911, 983, 1231, 3557,
    3691, 4999, 11003, 13327]

/-- The modulus of the base field, after the large primes that it goes back to. -/
def unitOrders : List UnitOrder :=
  [⟨⟨327599, 19, 1, by decide⟩, [(2, 1), (19, 1), (37, 1), (233, 1)]⟩,
    ⟨⟨1853641, 17, 3, by decide⟩, [(2, 3), (3, 2), (5, 1), (19, 1), (271, 1)]⟩,
    ⟨⟨4562087, 5, 1, by decide⟩, [(2, 1), (17, 1), (109, 1), (1231, 1)]⟩,
    ⟨⟨173171039, 13, 1, by decide⟩, [(2, 1), (73, 1), (89, 1), (13327, 1)]⟩,
    ⟨⟨405928799, 22, 1, by decide⟩, [(2, 1), (11, 1), (3691, 1), (4999, 1)]⟩,
    ⟨⟨1263766531, 10, 1, by decide⟩, [(2, 1), (3, 1), (5, 1), (13, 1), (911, 1), (3557, 1)]⟩,
    ⟨⟨11465965001, 3, 3, by decide⟩, [(2, 3), (5, 4), (7, 1), (327599, 1)]⟩,
    ⟨⟨35385462869, 2, 2, by decide⟩, [(2, 2), (7, 1), (1263766531, 1)]⟩,
    ⟨⟨2480874801745591, 6, 1, by decide⟩,
      [(2, 1), (3, 2), (5, 1), (19, 1), (41, 1), (35385462869, 1)]⟩,
    ⟨⟨13427688667394608761327070753331941386769, 17, 4, by decide⟩,
      [(2, 4), (3, 1), (7, 1), (11, 1), (1853641, 1), (4562087, 1), (173171039, 1),
        (2480874801745591, 1)]⟩,
    ⟨base, [(2, 1), (3, 2), (13, 1), (29, 1), (67, 1), (229, 1), (311, 1), (983, 1), (11003, 1),
      (405928799, 1), (11465965001, 1), (13427688667394608761327070753331941386769, 1)]⟩]

theorem certifiedFrom_unitOrders : CertifiedFrom smallFactors unitOrders := by decide +kernel

theorem prime_base : base.modulus.Prime := by
  have hsmall : ∀ p ∈ smallFactors, p.Prime := by
    simp only [smallFactors, List.forall_mem_cons]
    norm_num
  have hbase : (unitOrders.getLast (by simp [unitOrders])).field = base := rfl
  rw [← hbase]
  exact certifiedFrom_unitOrders.prime hsmall _ (List.getLast_mem _)

instance : Fact base.modulus.Prime := ⟨prime_base⟩

/-! ## The base field -/

theorem base_mod_four : base.modulus % 4 = 3 := by decide

/-- Two is not zero in the base field. -/
theorem two_ne_zero : (1 + 1 : Fq) ≠ 0 := by decide +kernel

namespace Fq

/-- A square root is checked before it is given. -/
theorem mul_self_of_sqrt? {a r : Fq} (h : sqrt? a = some r) : r * r = a := by
  unfold sqrt? at h
  dsimp only at h
  split at h
  · next hroot =>
    obtain rfl := Option.some.inj h
    exact hroot
  · cases h

/-- The power that is tried is a square root of every square. -/
theorem exists_sqrt? (y : Fq) : ∃ r, sqrt? (y * y) = some r := by
  have hroot := Fp.mul_self_quarter base_mod_four y
  unfold sqrt?
  exact ⟨_, if_pos hroot⟩

/-- `-3` is not a cube, so a point of the first curve has `y ≠ 0`. -/
theorem cube_add_b1_ne_zero (x : Fq) : x * x * x + b1 ≠ 0 := by
  intro h
  have hx : x ≠ 0 := by
    rintro rfl
    exact absurd h (by decide +kernel)
  have hcube : x ^ 3 = -b1 := by linear_combination h
  have hone := Fp.pow_div_eq_one hx (n := 3) (by decide)
  rw [hcube] at hone
  exact absurd hone (by decide +kernel)

end Fq

/-! ## The field of degree two -/

namespace Fq2

@[ext] theorem ext {a b : Fq2} (h₀ : a.c0 = b.c0) (h₁ : a.c1 = b.c1) : a = b := by
  cases a; cases b; cases h₀; cases h₁; rfl

@[simp] theorem c0_zero : (0 : Fq2).c0 = 0 := rfl

@[simp] theorem c1_zero : (0 : Fq2).c1 = 0 := rfl

@[simp] theorem c0_neg (a : Fq2) : (-a).c0 = -a.c0 := rfl

@[simp] theorem c1_neg (a : Fq2) : (-a).c1 = -a.c1 := rfl

/-- The sum of two products is reduced once. -/
theorem sumOfProducts_eq (a b c d : Nat) : sumOfProducts a b c d = (a : Fq) * b + (c : Fq) * d := by
  rw [sumOfProducts, Fp.ofNat_eq_natCast]
  push_cast
  rfl

theorem natCast_modulus_sub (a : Fq) : ((base.modulus - a.val : Nat) : Fq) = -a := by
  rw [Nat.cast_sub (Nat.le_of_lt a.isLt), Fp.natCast_val, (Fp.natCast_eq_zero_iff _).2 dvd_rfl,
    zero_sub]

@[simp] theorem c0_mul (a b : Fq2) : (a * b).c0 = a.c0 * b.c0 - a.c1 * b.c1 := by
  show sumOfProducts a.c0.val b.c0.val (base.modulus - a.c1.val) b.c1.val = _
  rw [sumOfProducts_eq, natCast_modulus_sub, Fp.natCast_val, Fp.natCast_val, Fp.natCast_val]
  ring

@[simp] theorem c1_mul (a b : Fq2) : (a * b).c1 = a.c0 * b.c1 + a.c1 * b.c0 := by
  show sumOfProducts a.c0.val b.c1.val a.c1.val b.c0.val = _
  rw [sumOfProducts_eq, Fp.natCast_val, Fp.natCast_val, Fp.natCast_val, Fp.natCast_val]

/-- **There are no more than two square roots.** -/
theorem eq_or_eq_neg_of_mul_self_eq {r y : Fq2} (h : r * r = y * y) : r = y ∨ r = -y := by
  have h₀ := congrArg c0 h
  have h₁ := congrArg c1 h
  simp only [c0_mul, c1_mul] at h₀ h₁
  -- The norm of `(r - y) (r + y)` is the product of the norms.
  have hnorm : ((r.c0 - y.c0) * (r.c0 - y.c0) + (r.c1 - y.c1) * (r.c1 - y.c1)) *
      ((r.c0 + y.c0) * (r.c0 + y.c0) + (r.c1 + y.c1) * (r.c1 + y.c1)) = 0 := by
    linear_combination (r.c0 * r.c0 - r.c1 * r.c1 - (y.c0 * y.c0 - y.c1 * y.c1)) * h₀ +
      (r.c0 * r.c1 + r.c1 * r.c0 - (y.c0 * y.c1 + y.c1 * y.c0)) * h₁
  rcases mul_eq_zero.1 hnorm with hsub | hadd
  · obtain ⟨e₀, e₁⟩ := (Fp.sum_squares_eq_zero_iff base_mod_four).1 hsub
    exact .inl (ext (sub_eq_zero.1 e₀) (sub_eq_zero.1 e₁))
  · obtain ⟨e₀, e₁⟩ := (Fp.sum_squares_eq_zero_iff base_mod_four).1 hadd
    exact .inr (ext (eq_neg_of_add_eq_zero_left e₀) (eq_neg_of_add_eq_zero_left e₁))

theorem mul_self_of_sqrtOfBase? {a : Fq} {r : Fq2} (h : sqrtOfBase? a = some r) :
    r * r = ⟨a, 0⟩ := by
  unfold sqrtOfBase? at h
  split at h
  · next s hs =>
    have hs := Fq.mul_self_of_sqrt? hs
    obtain rfl := Option.some.inj h
    apply ext
    · simp [hs]
    · simp
  · obtain ⟨s, hs, rfl⟩ := Option.map_eq_some_iff.1 h
    have hs := Fq.mul_self_of_sqrt? hs
    apply ext
    · simp [hs]
    · simp

theorem mul_self_of_sqrtFromHalf? {a r : Fq2} {half : Fq} (h : sqrtFromHalf? a half = some r) :
    r * r = a := by
  unfold sqrtFromHalf? at h
  obtain ⟨x, -, h⟩ := Option.bind_eq_some_iff.1 h
  dsimp only at h
  split at h
  · next hroot =>
    obtain rfl := Option.some.inj h
    exact hroot
  · cases h

/-- What is given as a square root is one. -/
theorem mul_self_of_sqrt? {a r : Fq2} (h : sqrt? a = some r) : r * r = a := by
  unfold sqrt? at h
  split at h
  · next hreal =>
    rw [mul_self_of_sqrtOfBase? h]
    exact ext rfl hreal.symm
  · obtain ⟨norm, -, h⟩ := Option.bind_eq_some_iff.1 h
    dsimp only at h
    split at h
    · next s hs =>
      rw [← Option.some.inj h]
      exact mul_self_of_sqrtFromHalf? hs
    · exact mul_self_of_sqrtFromHalf? h

theorem exists_sqrtOfBase? {a : Fq} (s t : Fq) (real : a = s * s - t * t) (zero : s = 0 ∨ t = 0) :
    ∃ r, sqrtOfBase? a = some r := by
  unfold sqrtOfBase?
  cases ha : a.sqrt? with
  | some r => exact ⟨_, rfl⟩
  | none =>
    have hs : s = 0 := by
      rcases zero with hs | ht
      · exact hs
      · obtain ⟨r, hr⟩ := Fq.exists_sqrt? s
        rw [real, ht, mul_zero, sub_zero, hr] at ha
        cases ha
    obtain ⟨r, hr⟩ := Fq.exists_sqrt? t
    have hneg : -a = t * t := by
      rw [real, hs]
      ring
    rw [hneg, hr]
    exact ⟨_, rfl⟩

/-- If `s²` is the half, the first coefficient of a root is `s` or `-s`, and its candidate passes. -/
theorem exists_sqrtFromHalf? {a : Fq2} {s t half : Fq} (hs : s ≠ 0) (hhalf : half = s * s)
    (h₀ : a.c0 = s * s - t * t) (h₁ : a.c1 = s * t + t * s) :
    ∃ r, sqrtFromHalf? a half = some r := by
  obtain ⟨x, hx⟩ := Fq.exists_sqrt? s
  have hxx := Fq.mul_self_of_sqrt? hx
  have hx0 : x ≠ 0 := by
    rintro rfl
    exact hs (mul_self_eq_zero.1 (by rw [← hxx, mul_zero]))
  have hsum : x + x ≠ 0 := by
    rw [← two_mul, ← one_add_one_eq_two]
    exact mul_ne_zero two_ne_zero hx0
  set y := a.c1 * (x + x).inverseOrZero with hy
  have hxy : (x + x) * y = a.c1 := by
    rw [hy, mul_left_comm, Fp.mul_inverseOrZero hsum, mul_one]
  have hyy : y * y = t * t := by
    -- Both sides times `4 s²` are the square of the second coefficient.
    have hfour : (x + x) * (x + x) * (y * y) = (x + x) * (x + x) * (t * t) := by
      linear_combination ((x + x) * y + a.c1) * hxy + (a.c1 + (s * t + t * s)) * h₁ -
        4 * (t * t) * hxx
    exact mul_left_cancel₀ (mul_ne_zero hsum hsum) hfour
  have hroot : (⟨x, y⟩ : Fq2) * ⟨x, y⟩ = a := by
    apply ext
    · rw [c0_mul, h₀, hxx, hyy]
    · rw [c1_mul, ← hxy]
      ring
  refine ⟨⟨x, y⟩, ?_⟩
  unfold sqrtFromHalf?
  rw [hhalf, hx, Option.bind_eq_bind, Option.bind_some]
  exact if_pos hroot

/-- **Every square has a square root.** -/
theorem exists_sqrt? (y : Fq2) : ∃ r, sqrt? (y * y) = some r := by
  obtain ⟨s, t⟩ := y
  set a : Fq2 := ⟨s, t⟩ * ⟨s, t⟩ with ha
  have h₀ : a.c0 = s * s - t * t := c0_mul _ _
  have h₁ : a.c1 = s * t + t * s := c1_mul _ _
  unfold sqrt?
  split
  · next hreal =>
    refine exists_sqrtOfBase? s t h₀ ?_
    have hst : (1 + 1) * (s * t) = 0 := by
      rw [← hreal, h₁]
      ring
    exact mul_eq_zero.1 ((mul_eq_zero.1 hst).resolve_left two_ne_zero)
  · next himaginary =>
    have hs : s ≠ 0 := by
      rintro rfl
      exact himaginary (by rw [h₁]; ring)
    have hnorm : a.c0 * a.c0 + a.c1 * a.c1 = (s * s + t * t) * (s * s + t * t) := by
      rw [h₀, h₁]
      ring
    obtain ⟨norm, hsqrt⟩ := Fq.exists_sqrt? (s * s + t * t)
    have hhalf : ∀ x : Fq, (x + x) * (1 + 1 : Fq).inverseOrZero = x := by
      intro x
      rw [← two_mul, ← one_add_one_eq_two, mul_comm (1 + 1) x, mul_assoc,
        Fp.mul_inverseOrZero two_ne_zero, mul_one]
    rw [hnorm, hsqrt, Option.bind_eq_bind, Option.bind_some]
    dsimp only
    -- The norm has two roots; with the one of them the first half is `s²`, with the other the second.
    rcases mul_self_eq_mul_self_iff.1 (Fq.mul_self_of_sqrt? hsqrt) with hpos | hneg
    · have hfirst : (a.c0 + norm) * (1 + 1 : Fq).inverseOrZero = s * s := by
        rw [← hhalf (s * s), hpos, h₀]
        ring
      obtain ⟨r, hr⟩ := exists_sqrtFromHalf? hs hfirst h₀ h₁
      rw [hr]
      exact ⟨r, rfl⟩
    · have hsecond : (a.c0 - norm) * (1 + 1 : Fq).inverseOrZero = s * s := by
        rw [← hhalf (s * s), hneg, h₀]
        ring
      obtain ⟨r, hr⟩ := exists_sqrtFromHalf? hs hsecond h₀ h₁
      rw [hr]
      split
      · exact ⟨_, rfl⟩
      · exact ⟨r, rfl⟩

end Fq2

end Groth16.Bn254
