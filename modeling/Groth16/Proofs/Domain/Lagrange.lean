import Groth16.Proofs.Domain.Construction
import Groth16.Proofs.Domain.Inversion

/-!
# The Lagrange basis at a point

The setup evaluates polynomials that are given by their values over a domain, and the prover finds
their coefficients from the same values.  The first goes through a closed formula for the Lagrange
basis, the second through the inverse transform.  This file ties the two together.

* `Domain.LagrangeBasis`: a list of values is the Lagrange basis at a point, for polynomials and for
  vectors of values.
* `Domain.Valid.lagrangeAt_eq_report_iff`: exactly the points of the subgroup are reported.
* `Domain.Valid.exists_lagrangeBasis`, `lagrangeAt_eq_breach`: everywhere else there is a basis, unless
  the points of the domain cannot be held in memory.
* `Domain.Valid.denominator_ne_zero`: there, no denominator of the formula is zero.
* `Domain.lagrange_interpolates`: all of this, for the domains that are built.
-/

set_option autoImplicit false

namespace Groth16

open Finset Polynomial

variable {K : PrimeField}

namespace Domain

/-- The list holds the values at `τ` of the Lagrange basis of the domain.  It turns the values of a
polynomial of degree below the size of the domain into the value at `τ`, and so it does with a vector
of values, through the coefficients that the inverse transform finds. -/
structure LagrangeBasis (d : Domain K) (tau : Fp K) (ls : List (Fp K)) : Prop where
  /-- There is a value for every point of the domain. -/
  length : ls.length = d.size
  /-- Weighted with the basis, the values of a polynomial come to the value at `τ`. -/
  sum_eval : ∀ P : (Fp K)[X], P.degree < d.size →
    ∑ i ∈ range d.size, P.eval (d.root ^ i) * listAt ls i = P.eval tau
  /-- Weighted with the basis, the entries of a vector come to the value at `τ` of the polynomial
  whose coefficients the inverse transform finds. -/
  sum_intt : ∀ e : Array (Fp K), e.size = d.size →
    ∃ c, d.intt e = .ok c ∧
      ∑ i ∈ range d.size, vectorAt e i * listAt ls i = (polynomialOf c).eval tau

section
variable [Fact K.modulus.Prime] {d : Domain K} {tau : Fp K}

namespace Valid

/-- What is returned is the Lagrange basis. -/
theorem lagrangeBasis (h : d.Valid) {ls : List (Fp K)} (hls : d.lagrangeAt tau = .ok ls) :
    d.LagrangeBasis tau ls := by
  refine ⟨length_lagrangeAt hls, fun P hP => h.sum_lagrangeAt hls hP, fun e size => ?_⟩
  obtain ⟨c, hc, csize, cvalues⟩ := h.intt_ok size
  have hdegree : (polynomialOf c).degree < d.size := by
    rw [← csize]
    exact degree_polynomialOf_lt c
  refine ⟨c, hc, ?_⟩
  rw [← h.sum_lagrangeAt hls hdegree]
  exact sum_congr rfl fun i hi => by rw [cvalues i (mem_range.1 hi)]

theorem vanishingAt_eq_zero_iff (h : d.Valid) : d.vanishingAt tau = 0 ↔ tau ∈ d.elements :=
  sub_eq_zero.trans h.mem_elements_iff.symm

theorem vanishingAt_ne_zero (h : d.Valid) (outside : tau ∉ d.elements) : d.vanishingAt tau ≠ 0 :=
  fun hzero => outside (h.vanishingAt_eq_zero_iff.1 hzero)

/-- Exactly the points of the subgroup are reported. -/
theorem lagrangeAt_eq_report_iff (h : d.Valid) :
    d.lagrangeAt tau = Outcome.report .pointInDomain ↔ tau ∈ d.elements := by
  rw [← h.vanishingAt_eq_zero_iff, lagrangeAt]
  by_cases hz : d.vanishingAt tau = 0
  · simp [hz]
  · refine iff_of_false (fun heq => ?_) hz
    rw [if_neg hz, listElements] at heq
    split at heq
    · cases heq
    · cases heq

/-- Outside of the subgroup there is a basis, if the points of the domain can be held. -/
theorem exists_lagrangeBasis (h : d.Valid) (outside : tau ∉ d.elements)
    (listed : d.size ≤ maxListed) : ∃ ls, d.lagrangeAt tau = .ok ls ∧ d.LagrangeBasis tau ls := by
  obtain ⟨ls, hls⟩ : ∃ ls, d.lagrangeAt tau = .ok ls := by
    rw [lagrangeAt, listElements, if_pos listed]
    exact ⟨_, if_neg (h.vanishingAt_ne_zero outside)⟩
  exact ⟨ls, hls, h.lagrangeBasis hls⟩

/-- If they cannot be held, asking for the basis is a breach. -/
theorem lagrangeAt_eq_breach (h : d.Valid) (outside : tau ∉ d.elements)
    (large : maxListed < d.size) : d.lagrangeAt tau = Outcome.breach := by
  rw [lagrangeAt, listElements, if_neg (Nat.not_le_of_lt large)]
  exact if_neg (h.vanishingAt_ne_zero outside)

/-- Outside of the subgroup, all denominators are inverted. -/
theorem denominator_ne_zero (h : d.Valid) (outside : tau ∉ d.elements) {w : Fp K}
    (hw : w ∈ d.elements) : Fp.ofNat K d.size * (tau - w) ≠ 0 := by
  refine mul_ne_zero ?_ (sub_ne_zero.2 fun heq => outside (heq ▸ hw))
  rw [Fp.ofNat_eq_natCast]
  exact h.natCast_size_ne_zero

end Valid

/-- **The Lagrange basis at a point.**  Over every domain that is built, exactly the points of the
subgroup are reported.  At every other point all denominators of the formula are inverted, and the
values that are returned interpolate: they turn the values of every polynomial of degree below the
size of the domain into its value at the point, and every vector of values into the value of the
polynomial that the inverse transform finds.  The only exception are domains whose points cannot be
held in memory, and a field with roots of unity of less than `2 ^ 58` has none of them. -/
theorem lagrange_interpolates {n : Nat} (built : ofSize K n = .ok d) (tau : Fp K) :
    (d.lagrangeAt tau = Outcome.report .pointInDomain ↔ tau ∈ d.elements) ∧
    (tau ∉ d.elements →
      (∀ w ∈ d.elements, Fp.ofNat K d.size * (tau - w) ≠ 0) ∧
      ((∃ ls, d.lagrangeAt tau = .ok ls ∧ d.LagrangeBasis tau ls) ∨
        maxListed < d.size ∧ d.lagrangeAt tau = Outcome.breach)) ∧
    (K.twoAdicity < 58 → d.size ≤ maxListed) := by
  have valid := (ofSize_valid built).1
  refine ⟨valid.lagrangeAt_eq_report_iff, fun outside => ⟨?_, ?_⟩, size_le_maxListed built⟩
  · exact fun w hw => valid.denominator_ne_zero outside hw
  · rcases Nat.lt_or_ge maxListed d.size with large | listed
    · exact .inr ⟨large, valid.lagrangeAt_eq_breach outside large⟩
    · exact .inl (valid.exists_lagrangeBasis outside listed)

/-- Over four scalars of BN254, one is reported, and five has a basis. -/
theorem lagrange_interpolates_sample :
    ∃ d : Domain bn254Scalar, ofSize bn254Scalar 3 = .ok d ∧ d.size = 4 ∧
      d.lagrangeAt 1 = Outcome.report .pointInDomain ∧
      ∃ ls, d.lagrangeAt 5 = .ok ls ∧ d.LagrangeBasis 5 ls := by
  obtain ⟨d, built, size⟩ := exists_ofSize_bn254
  have valid := (ofSize_valid built).1
  have hone : (1 : Fp bn254Scalar) ∈ d.elements := valid.mem_elements_iff.2 (one_pow _)
  have hfive : (5 : Fp bn254Scalar) ∉ d.elements := by
    rw [valid.mem_elements_iff, size]
    decide +kernel
  obtain ⟨reported, -, -⟩ := lagrange_interpolates built (1 : Fp bn254Scalar)
  obtain ⟨-, basis, few⟩ := lagrange_interpolates built (5 : Fp bn254Scalar)
  refine ⟨d, built, size, reported.2 hone, ?_⟩
  rcases (basis hfive).2 with hls | ⟨large, -⟩
  · exact hls
  · exact absurd (few (by decide)) (Nat.not_le_of_lt large)

end

end Domain

end Groth16
