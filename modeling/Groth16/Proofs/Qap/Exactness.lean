import Groth16.Proofs.Protocol.Setup
import Groth16.Proofs.Qap.Quotient

/-!
# The reduction to polynomials is exact

The columns that the setup evaluates and the quotient that the prover finds are made in different
ways, but are about the same polynomials.  So a vector of wires satisfies a system exactly if the
identity of the columns has a quotient; and whether it has one, finitely many points decide.

* `Qap.Evaluations.Identity`: the identity of the columns at a point, for wires and a quotient.
* `Domain.Valid.exists_interpolates`: values that fit on the domain have an interpolating polynomial.
* `Qap.satisfies_of_identity`: an identity at more points than its degree is one of polynomials, and
  then all rows hold.
* `qap_exact`: both directions, for compiled systems and the domains that are built.
-/

set_option autoImplicit false

namespace Groth16

variable {K : PrimeField}

open Finset Polynomial

namespace Domain

namespace Valid

variable [prime : Fact K.modulus.Prime] {d : Domain K}

/-- Values that fit on the domain have an interpolating polynomial. -/
theorem exists_interpolates (h : d.Valid) {values : List (Fp K)} (fits : values.length ≤ d.size) :
    ∃ P : (Fp K)[X], d.Interpolates values P := by
  obtain ⟨a, -, hsize, hsame⟩ := Qap.padded?_eq_some fits
  obtain ⟨b, -, hbsize, hvalues⟩ := h.intt_ok hsize
  refine ⟨polynomialOf b, ?_, fun i hi => by rw [hvalues i hi, hsame]⟩
  rw [← hbsize]
  exact degree_polynomialOf_lt b

end Valid

end Domain

namespace Qap

/-- **The identity of the columns** at `τ`: weighted with the wires, the product of the first two
columns exceeds the third by the vanishing polynomial times the polynomial with the coefficients
`h`. -/
def Evaluations.Identity (q : Evaluations K) (tau : Fp K) (z h : Array (Fp K)) : Prop :=
  (∑ i ∈ range z.size, vectorAt q.u i * vectorAt z i) *
      (∑ i ∈ range z.size, vectorAt q.v i * vectorAt z i) -
    ∑ i ∈ range z.size, vectorAt q.w i * vectorAt z i =
      (∑ j ∈ range h.size, vectorAt h j * tau ^ j) * q.vanishing

variable {s : ConstraintSystem K} {d : Domain K} {z h : Array (Fp K)}

/-- The three sums of the identity are values of interpolating polynomials. -/
theorem Evaluated.identity_iff {tau : Fp K} {q : Evaluations K} (evaluated : Evaluated s d tau q)
    (size : z.size = s.numWires) {A B P : (Fp K)[X]}
    (hA : d.Interpolates (factorsA s (vectorAt z)) A)
    (hB : d.Interpolates (factorsB s (vectorAt z)) B)
    (hP : d.Interpolates (products s (vectorAt z)) P) :
    q.Identity tau z h ↔ (A * B - P - polynomialOf h * d.vanishing).eval tau = 0 := by
  rw [Evaluations.Identity, size, evaluated.sum_u (vectorAt z) A hA,
    evaluated.sum_v (vectorAt z) B hB, evaluated.sum_w (vectorAt z) P hP, evaluated.vanishing,
    eval_sub, eval_sub, eval_mul, eval_mul, eval_polynomialOf, Domain.eval_vanishing,
    Domain.vanishingAt, sub_eq_zero]

/-- A divisible product satisfies the identity wherever the columns are evaluated. -/
theorem Divides.identity {tau : Fp K} {q : Evaluations K} (divides : Divides s d (vectorAt z) h)
    (evaluated : Evaluated s d tau q) (size : z.size = s.numWires) : q.Identity tau z h := by
  rw [Evaluations.Identity, size]
  exact divides.eval_eq evaluated

/-- If the product of the factors of every row is what it should be, all constraints hold. -/
theorem satisfies_of_factors (rows : numRows s ≤ d.size) {z : Nat → Fp K}
    (factors : ∀ i < d.size,
      listAt (factorsA s z) i * listAt (factorsB s z) i = listAt (products s z) i) :
    s.Satisfies z := by
  intro c hc
  obtain ⟨i, hi⟩ := List.getElem?_of_mem hc
  have hlt : i < s.numConstraints := (List.getElem?_eq_some_iff.1 hi).1
  have hvalue : ∀ part : Constraint K → LinearCombination K,
      listAt (rowValues part s z) i = (part c).eval z := by
    intro part
    refine listAt_of_getElem? ?_
    rw [rowValues, List.getElem?_map, hi, Option.map_some]
  have hfirst : listAt (factorsA s z) i = listAt (rowValues (·.a) s z) i :=
    listAt_append_left (by rwa [length_rowValues]) _
  have hrow := factors i (Nat.lt_of_lt_of_le hlt ((numConstraints_le_numRows s).trans rows))
  rw [hfirst, factorsB, products, hvalue, hvalue, hvalue] at hrow
  exact hrow

section
variable [prime : Fact K.modulus.Prime]

/-- What is left of the identity has a degree below twice the size of the domain less one. -/
theorem degree_remainder_lt (valid : d.Valid) {A B P : (Fp K)[X]} (hA : A.degree < d.size)
    (hB : B.degree < d.size) (hP : P.degree < d.size) (length : h.size ≤ d.size - 1) :
    (A * B - P - polynomialOf h * d.vanishing).degree < (2 * d.size - 1 : Nat) := by
  have hpos := valid.size_pos
  have hproduct : (A * B).natDegree ≤ 2 * d.size - 2 := by
    have hA' := natDegree_le_of_degree_lt hA
    have hB' := natDegree_le_of_degree_lt hB
    have hmul : (A * B).natDegree ≤ A.natDegree + B.natDegree := natDegree_mul_le
    omega
  have hP' : P.natDegree ≤ 2 * d.size - 2 := (natDegree_le_of_degree_lt hP).trans (by omega)
  have hquotient : (polynomialOf h * d.vanishing).natDegree ≤ 2 * d.size - 2 := by
    by_cases hempty : h.size = 0
    · rw [polynomialOf, hempty, range_zero, sum_empty, zero_mul, natDegree_zero]
      exact Nat.zero_le _
    · have hh := natDegree_le_of_degree_lt (degree_polynomialOf_lt h)
      have hvanishing : d.vanishing.natDegree = d.size := natDegree_X_pow_sub_C
      have hmul : (polynomialOf h * d.vanishing).natDegree ≤
          (polynomialOf h).natDegree + d.vanishing.natDegree := natDegree_mul_le
      omega
  have hremainder : (A * B - P - polynomialOf h * d.vanishing).natDegree ≤ 2 * d.size - 2 :=
    (natDegree_sub_le _ _).trans (max_le ((natDegree_sub_le _ _).trans (max_le hproduct hP'))
      hquotient)
  refine (degree_le_of_natDegree_le hremainder).trans_lt ?_
  exact_mod_cast (by omega : 2 * d.size - 2 < 2 * d.size - 1)

/-- **An identity at more points than its degree makes all rows hold.** -/
theorem satisfies_of_identity (valid : d.Valid) (rows : numRows s ≤ d.size)
    (size : z.size = s.numWires) (length : h.size ≤ d.size - 1) {points : Finset (Fp K)}
    (many : points.card = 2 * d.size - 1)
    (identity : ∀ tau ∈ points, ∃ q, evaluateAt s d tau = .ok q ∧ q.Identity tau z h) :
    s.Satisfies (vectorAt z) := by
  have hfits : ∀ part : Constraint K → LinearCombination K,
      (rowValues part s (vectorAt z)).length ≤ d.size := fun part => by
    rw [length_rowValues]
    exact (numConstraints_le_numRows s).trans rows
  obtain ⟨A, hA⟩ : ∃ A, d.Interpolates (factorsA s (vectorAt z)) A :=
    valid.exists_interpolates (by rwa [length_factorsA])
  obtain ⟨B, hB⟩ : ∃ B, d.Interpolates (factorsB s (vectorAt z)) B :=
    valid.exists_interpolates (hfits (·.b))
  obtain ⟨P, hP⟩ : ∃ P, d.Interpolates (products s (vectorAt z)) P :=
    valid.exists_interpolates (hfits (·.c))
  have hzero : A * B - P - polynomialOf h * d.vanishing = 0 := by
    refine eq_zero_of_degree_lt_of_eval_finset_eq_zero points ?_ fun tau htau => ?_
    · rw [many]
      exact degree_remainder_lt valid hA.degree_lt hB.degree_lt hP.degree_lt length
    · obtain ⟨q, hq, hidentity⟩ := identity tau htau
      exact ((evaluateAt_eq_ok valid hq).identity_iff size hA hB hP).1 hidentity
  -- On the domain, the quotient has no say.
  refine satisfies_of_factors rows fun i hi => ?_
  have hvalue := congrArg (eval (d.root ^ i)) hzero
  rw [eval_sub, eval_sub, eval_mul, eval_mul, Domain.eval_vanishing, Domain.vanishingAt,
    valid.root_pow, sub_self, mul_zero, sub_zero, eval_zero, hA.eval_root i hi, hB.eval_root i hi,
    hP.eval_root i hi] at hvalue
  exact sub_eq_zero.1 hvalue

end

end Qap

/-- **The reduction is exact.**  Let a circuit be compiled, and let a domain be built with a point for
every row of the system.  For every vector of all wires: if it passes the check, a quotient is found,
with one coefficient less than the domain has points but with one at least, and with it the identity
of the columns holds at every point outside of the domain, where the columns are evaluated unless the
points of the domain cannot be held in memory; and if the identity holds at one point less than twice
the size of the domain, for any coefficients, fewer than the domain has points, then the vector passes
the check. -/
theorem qap_exact [Fact K.modulus.Prime] {c : Circuit K} {modulus : Modulus} {session : Nat}
    {calls : List (Call K)} {r : R1CS K} (compilation : Compilation c modulus session calls r)
    {n : Nat} {d : Domain K} (built : Domain.ofSize K n = .ok d)
    (rows : Qap.numRows r.toConstraintSystem ≤ d.size) {z : Array (Fp K)}
    (size : z.size = r.numWires) :
    (r.check z = .ok () →
      ∃ h, Qap.quotient r.toConstraintSystem d z = .ok h ∧ h.size = max (d.size - 1) 1 ∧
        ∀ tau ∉ d.elements,
          (∃ q, Qap.evaluateAt r.toConstraintSystem d tau = .ok q ∧ q.Identity tau z h) ∨
            Domain.maxListed < d.size ∧
              Qap.evaluateAt r.toConstraintSystem d tau = Outcome.breach) ∧
    ∀ h : Array (Fp K), h.size ≤ d.size - 1 → ∀ points : Finset (Fp K),
      points.card = 2 * d.size - 1 →
      (∀ tau ∈ points, tau ∉ d.elements ∧
        ∃ q, Qap.evaluateAt r.toConstraintSystem d tau = .ok q ∧ q.Identity tau z h) →
      r.check z = .ok () := by
  obtain ⟨ops, recorded, -⟩ := compilation.exists_recorded
  have valid := (Domain.ofSize_valid built).1
  have hbelow := recorded.records.below
  have hbelow' : ∀ c ∈ r.constraints.toList, c.Below z.size := by rwa [size]
  have hinside := recorded.numInstance_le
  rw [ConstraintSystem.check_eq_ok_iff hbelow']
  refine ⟨fun satisfies => ?_, fun h length points many identity => ?_⟩
  · obtain ⟨h, hquotient, divides⟩ :=
      Qap.quotient_ok valid rows hbelow' (by rwa [size]) satisfies
    refine ⟨h, hquotient, divides.size, fun tau htau => ?_⟩
    have houtside : tau ^ d.size ≠ 1 := fun hone => htau (valid.mem_elements_iff.2 hone)
    by_cases hlisted : d.size ≤ Domain.maxListed
    · obtain ⟨q, hq⟩ := Qap.evaluateAt_ok rows hlisted hbelow hinside houtside
      exact .inl ⟨q, hq, divides.identity (Qap.evaluateAt_eq_ok valid hq) size⟩
    · refine .inr ⟨Nat.lt_of_not_le hlisted, ?_⟩
      rw [Qap.evaluateAt, Domain.lagrangeAt, Domain.vanishingAt, if_neg (sub_ne_zero.2 houtside),
        Domain.listElements, if_neg hlisted]
      rfl
  · exact Qap.satisfies_of_identity valid rows size length many fun tau htau =>
      (identity tau htau).2

/-- A solution of the circuit has a quotient of 31 coefficients over its domain of 32 points, and at
the point five it satisfies the identity. -/
theorem qap_exact_sample :
    ∃ r, Compilation Sample.circuit Sample.field.descriptor 1 Sample.calls r ∧
      r.check (Sample.wires 0) = .ok () ∧
      ∃ h, Qap.quotient r.toConstraintSystem Sample.domain (Sample.wires 0) = .ok h ∧
        h.size = 31 ∧
        ∃ q, Qap.evaluateAt r.toConstraintSystem Sample.domain (.ofNat Sample.field 5) = .ok q ∧
          q.Identity (.ofNat Sample.field 5) (Sample.wires 0) h := by
  obtain ⟨r, hr⟩ := Sample.exists_compilation
  obtain ⟨size, -, check, -⟩ := Sample.solution hr (.inl rfl)
  have built := Sample.domainFor_eq hr
  have rows := (Domain.ofSize_valid built).2
  obtain ⟨h, hquotient, hsize, hidentity⟩ := (qap_exact hr built rows size).1 check
  have houtside : Fp.ofNat Sample.field 5 ∉ Sample.domain.elements := by decide +kernel
  rcases hidentity _ houtside with hq | ⟨hlisted, -⟩
  · exact ⟨r, hr, check, h, hquotient, hsize, hq⟩
  · exact absurd hlisted (by decide)

end Groth16
