import Groth16.Proofs.Qap.Columns

/-!
# The quotient

On a vector of wires that satisfies all rows, `A·B - C` vanishes on the domain, so it is a multiple
of the vanishing polynomial.  The prover finds the other factor by dividing values on the coset.  This
file shows that what it finds is this factor, and that nothing is lost when the vector is cut off.

* `Domain.Valid.exists_eq_mul_vanishing`: a polynomial that vanishes on the domain is a multiple of
  the vanishing polynomial.
* `Qap.Divides`: the entries of a vector are the coefficients of the quotient.
* `Qap.quotient_ok`: on a satisfying vector, the prover finds the quotient.
* `Qap.Divides.eval_eq`: the identity of the columns at a point.
-/

set_option autoImplicit false

namespace Groth16

variable {K : PrimeField}

open Finset Polynomial

/-! ## The vanishing polynomial -/

namespace Domain.Valid

variable [prime : Fact K.modulus.Prime] {d : Domain K}

/-- A polynomial that vanishes on the domain is a multiple of the vanishing polynomial. -/
theorem exists_eq_mul_vanishing (h : d.Valid) {P : (Fp K)[X]} (hP : P.natDegree ≤ 2 * (d.size - 1))
    (zero : ∀ i < d.size, P.eval (d.root ^ i) = 0) :
    ∃ Q : (Fp K)[X], P = Q * d.vanishing ∧ Q.degree < (d.size - 1 : Nat) := by
  have hmonic : d.vanishing.Monic := monic_X_pow_sub_C 1 h.size_pos.ne'
  have hdegree : d.vanishing.degree = d.size := degree_X_pow_sub_C h.size_pos 1
  have hdivision := modByMonic_add_div P d.vanishing
  -- The remainder vanishes on the domain too, and its degree is too small for that.
  have hremainder : P %ₘ d.vanishing = 0 := by
    refine eq_of_eval_eq h.injOn_root ?_ ?_ fun i hi => ?_
    · rw [← hdegree]
      exact degree_modByMonic_lt P hmonic
    · rw [degree_zero]
      exact WithBot.bot_lt_coe d.size
    · have hvalue := congrArg (eval (d.root ^ i)) hdivision
      rw [eval_add, eval_mul, eval_vanishing, vanishingAt, h.root_pow, sub_self, zero_mul, add_zero,
        zero i hi] at hvalue
      rw [hvalue, eval_zero]
  rw [hremainder, zero_add] at hdivision
  refine ⟨P /ₘ d.vanishing, by rw [mul_comm, hdivision], ?_⟩
  by_cases hQ : P /ₘ d.vanishing = 0
  · rw [hQ, degree_zero]
    exact WithBot.bot_lt_coe _
  · have hlarge : d.size ≤ P.natDegree := by
      rw [divByMonic_eq_zero_iff hmonic, hdegree, not_lt] at hQ
      exact le_natDegree_of_coe_le_degree hQ
    have hnat : d.vanishing.natDegree = d.size := natDegree_eq_of_degree_eq_some hdegree
    rw [← natDegree_lt_iff_degree_lt hQ, natDegree_divByMonic P hmonic, hnat]
    have := h.size_pos
    omega

end Domain.Valid

namespace Qap

variable {s : ConstraintSystem K} {d : Domain K}

/-! ## Values of rows -/

theorem padded?_eq_some {n : Nat} {xs : List (Fp K)} (h : xs.length ≤ n) :
    ∃ a, padded? n xs = some a ∧ a.size = n ∧ ∀ i, vectorAt a i = listAt xs i := by
  refine ⟨_, if_pos h, ?_, fun i => ?_⟩
  · rw [List.size_toArray, List.length_append, List.length_replicate]
    omega
  · rw [vectorAt_toArray, listAt_append_replicate]

theorem mapM_values? {z : Array (Fp K)} {rows : List (Constraint K)}
    (below : ∀ c ∈ rows, c.Below z.size) :
    rows.mapM (fun c => c.values? z) = some (rows.map fun c =>
      (c.a.eval (vectorAt z), c.b.eval (vectorAt z), c.c.eval (vectorAt z))) := by
  induction rows with
  | nil => rfl
  | cons c rows ih =>
    rw [List.forall_mem_cons] at below
    rw [List.mapM_cons, Constraint.values?_eq_some below.1, ih below.2]
    rfl

/-- The vectors that the prover transforms. -/
theorem rowValues?_eq_some {z : Array (Fp K)} {n : Nat}
    (below : ∀ c ∈ s.constraints.toList, c.Below z.size) (inside : s.numInstance ≤ z.size)
    (rows : numRows s ≤ n) :
    ∃ a b c, rowValues? s n z = some (a, b, c) ∧
      (a.size = n ∧ ∀ i, vectorAt a i = listAt (factorsA s (vectorAt z)) i) ∧
      (b.size = n ∧ ∀ i, vectorAt b i = listAt (factorsB s (vectorAt z)) i) ∧
      (c.size = n ∧ ∀ i, vectorAt c i = listAt (products s (vectorAt z)) i) := by
  have hknown : z.toList.take s.numInstance = (List.range s.numInstance).map (vectorAt z) := by
    refine List.ext_getElem? fun i => ?_
    rw [List.getElem?_take, List.getElem?_map, Array.getElem?_toList]
    split
    · next hi =>
      rw [List.getElem?_range hi, getElem?_eq_vectorAt (Nat.lt_of_lt_of_le hi inside)]
      rfl
    · next hi =>
      rw [List.getElem?_eq_none (by rw [List.length_range]; omega)]
      rfl
  have hrows := (length_factorsA s (vectorAt z)).trans_le rows
  have hzeros : ∀ part : Constraint K → LinearCombination K,
      (rowValues part s (vectorAt z) ++ List.replicate s.numInstance 0).length ≤ n := by
    intro part
    rw [List.length_append, length_rowValues, List.length_replicate]
    exact rows
  obtain ⟨a, ha, hasize, hasame⟩ := padded?_eq_some hrows
  obtain ⟨b, hb, hbsize, hbsame⟩ := padded?_eq_some (hzeros (·.b))
  obtain ⟨c, hc, hcsize, hcsame⟩ := padded?_eq_some (hzeros (·.c))
  refine ⟨a, b, c, ?_, ⟨hasize, hasame⟩, ⟨hbsize, fun i => ?_⟩, ⟨hcsize, fun i => ?_⟩⟩
  · rw [factorsA, rowValues] at ha
    rw [rowValues] at hb hc
    rw [rowValues?, mapM_values? below]
    simp only [Option.bind_eq_bind, Option.bind_some, if_pos inside, hknown, List.map_map,
      Function.comp_def, ha, hb, hc]
    rfl
  · rw [hbsame, listAt_append_replicate, factorsB]
  · rw [hcsame, listAt_append_replicate, products]

/-! ## The quotient -/

/-- The entries of the vector are the coefficients of the quotient of the system on the wires, over
the domain. -/
structure Divides (s : ConstraintSystem K) (d : Domain K) (z : Nat → Fp K) (h : Array (Fp K)) :
    Prop where
  /-- It has as many entries as the key has points for it. -/
  size : h.size = quotientLength d.size
  /-- It is the other factor of the vanishing polynomial. -/
  factors : ∃ A B C : (Fp K)[X], d.Interpolates (factorsA s z) A ∧ d.Interpolates (factorsB s z) B ∧
    d.Interpolates (products s z) C ∧ A * B - C = polynomialOf h * d.vanishing

/-- On satisfying wires, the product of the factors of a row is what it should be. -/
theorem factors_mul_eq {z : Nat → Fp K} (satisfies : s.Satisfies z) (i : Nat) :
    listAt (factorsA s z) i * listAt (factorsB s z) i = listAt (products s z) i := by
  by_cases hi : i < s.constraints.toList.length
  · have hvalue : ∀ part : Constraint K → LinearCombination K,
        listAt (rowValues part s z) i = (part s.constraints.toList[i]).eval z := by
      intro part
      refine listAt_of_getElem? ?_
      rw [rowValues, List.getElem?_map, List.getElem?_eq_getElem hi]
      rfl
    have hfirst : listAt (factorsA s z) i = listAt (rowValues (·.a) s z) i :=
      listAt_append_left (by rw [length_rowValues]; exact hi) _
    rw [hfirst, factorsB, products, hvalue, hvalue, hvalue]
    exact satisfies _ (List.getElem_mem hi)
  · -- Behind the constraints, the second factor and the product are zero.
    have hzero : ∀ part : Constraint K → LinearCombination K,
        listAt (rowValues part s z) i = 0 := fun part =>
      listAt_of_length_le (by rw [length_rowValues]; exact Nat.le_of_not_lt hi)
    rw [factorsB, products, hzero, hzero, mul_zero]

theorem natDegree_le_of_degree_lt {P : (Fp K)[X]} {n : Nat} (h : P.degree < n) :
    P.natDegree ≤ n - 1 := by
  by_cases hP : P = 0
  · rw [hP, natDegree_zero]
    exact Nat.zero_le _
  · have := (natDegree_lt_iff_degree_lt hP).2 h
    omega

section
variable [Fact K.modulus.Prime]

/-- The entries of the vector are the values of the polynomial over the coset. -/
structure OnCoset (d : Domain K) (P : (Fp K)[X]) (a : Array (Fp K)) : Prop where
  /-- There is an entry for every point. -/
  size : a.size = d.size
  /-- It is the value there. -/
  values : ∀ i < d.size, vectorAt a i = P.eval (d.shift * d.root ^ i)

/-- From the values over the domain to those over the coset. -/
theorem toCoset_ok (valid : d.Valid) {a : Array (Fp K)} (size : a.size = d.size)
    {values : List (Fp K)} (same : ∀ i, vectorAt a i = listAt values i) :
    ∃ P b, toCoset d a = .ok b ∧ d.Interpolates values P ∧ OnCoset d P b := by
  obtain ⟨c, hc, hcsize, hcvalues⟩ := valid.intt_ok size
  obtain ⟨b, hb, hbsize, hbvalues⟩ := valid.cosetNtt_ok hcsize
  refine ⟨polynomialOf c, b, ?_, ⟨?_, fun i hi => ?_⟩, hbsize, hbvalues⟩
  · rw [toCoset, hc]
    exact hb
  · rw [← hcsize]
    exact degree_polynomialOf_lt c
  · rw [hcvalues i hi, same]

/-- Over the coset the vanishing polynomial has one value, and divided by it the values are those of
the quotient. -/
theorem OnCoset.quotient (valid : d.Valid) {A B C Q : (Fp K)[X]} {a b c : Array (Fp K)}
    (ha : OnCoset d A a) (hb : OnCoset d B b) (hc : OnCoset d C c)
    (hQ : A * B - C = Q * d.vanishing) :
    OnCoset d Q (Array.zipWith (fun ab c => (ab - c) * d.vanishingOnCoset⁻¹)
      (Array.zipWith (· * ·) a b) c) := by
  have hproduct : (Array.zipWith (· * ·) a b).size = d.size := by
    rw [Array.size_zipWith, ha.size, hb.size, Nat.min_self]
  refine ⟨by rw [Array.size_zipWith, hproduct, hc.size, Nat.min_self], fun i hi => ?_⟩
  have hvalue := congrArg (eval (d.shift * d.root ^ i)) hQ
  rw [eval_sub, eval_mul, eval_mul, Domain.eval_vanishing, valid.vanishingAt_coset] at hvalue
  rw [vectorAt_zipWith (by rwa [hproduct]) (by rwa [hc.size]),
    vectorAt_zipWith (by rwa [ha.size]) (by rwa [hb.size]), ha.values i hi, hb.values i hi,
    hc.values i hi, hvalue, mul_assoc, mul_inv_cancel₀ valid.vanishingOnCoset_ne_zero, mul_one]

/-- From the values over the coset back to the coefficients. -/
theorem OnCoset.cosetIntt_ok (valid : d.Valid) {Q : (Fp K)[X]} {e : Array (Fp K)}
    (he : OnCoset d Q e) (degree : Q.degree < d.size) :
    ∃ f, d.cosetIntt e = .ok f ∧ f.size = d.size ∧ polynomialOf f = Q := by
  obtain ⟨f, hf, hfsize, hfvalues⟩ := valid.cosetIntt_ok he.size
  refine ⟨f, hf, hfsize, Domain.Valid.eq_of_eval_eq valid.injOn_coset ?_ degree fun i hi => ?_⟩
  · rw [← hfsize]
    exact degree_polynomialOf_lt f
  · rw [hfvalues i hi, he.values i hi]

/-- **On a satisfying vector the prover finds the quotient.** -/
theorem quotient_ok (valid : d.Valid) (rows : numRows s ≤ d.size) {z : Array (Fp K)}
    (below : ∀ c ∈ s.constraints.toList, c.Below z.size) (inside : s.numInstance ≤ z.size)
    (satisfies : s.Satisfies (vectorAt z)) :
    ∃ h, quotient s d z = .ok h ∧ Divides s d (vectorAt z) h := by
  obtain ⟨a, b, c, hvalues, ⟨hasize, ha⟩, ⟨hbsize, hb⟩, hcsize, hc⟩ :=
    rowValues?_eq_some below inside rows
  obtain ⟨A, a', ha', hA, hacoset⟩ := toCoset_ok valid hasize ha
  obtain ⟨B, b', hb', hB, hbcoset⟩ := toCoset_ok valid hbsize hb
  obtain ⟨C, c', hc', hC, hccoset⟩ := toCoset_ok valid hcsize hc
  have hdegree : (A * B - C).natDegree ≤ 2 * (d.size - 1) := by
    have hA' := natDegree_le_of_degree_lt hA.degree_lt
    have hB' := natDegree_le_of_degree_lt hB.degree_lt
    have hC' := natDegree_le_of_degree_lt hC.degree_lt
    have hmul : (A * B).natDegree ≤ A.natDegree + B.natDegree := natDegree_mul_le
    exact (natDegree_sub_le _ _).trans (max_le (by omega) (by omega))
  obtain ⟨Q, hQ, hQdegree⟩ := valid.exists_eq_mul_vanishing hdegree fun i hi => by
    rw [eval_sub, eval_mul, hA.eval_root i hi, hB.eval_root i hi, hC.eval_root i hi,
      factors_mul_eq satisfies, sub_self]
  have hlt : ((d.size - 1 : Nat) : WithBot Nat) ≤ d.size := by
    exact_mod_cast Nat.sub_le _ _
  obtain ⟨f, hf, hfsize, rfl⟩ :=
    (hacoset.quotient valid hbcoset hccoset hQ).cosetIntt_ok valid (hQdegree.trans_le hlt)
  -- The entry that is cut off is zero.
  have hcut : polynomialOf (f.take (quotientLength d.size)) = polynomialOf f := by
    refine polynomialOf_take (hQdegree.trans_le ?_)
    exact_mod_cast Nat.le_max_left _ _
  refine ⟨f.take (quotientLength d.size), ?_, ?_, A, B, C, hA, hB, hC, by rw [hcut, hQ]⟩
  · rw [quotient, hvalues, Outcome.require_some]
    change (toCoset d a >>= fun a => toCoset d b >>= fun b => toCoset d c >>= fun c => _) = _
    rw [ha', hb', hc', Fp.inverse?_eq_some valid.vanishingOnCoset_ne_zero]
    change (d.cosetIntt (Array.zipWith (fun ab c => (ab - c) * d.vanishingOnCoset⁻¹)
      (Array.zipWith (· * ·) a' b') c') >>= _) = _
    rw [hf]
    rfl
  · have := valid.size_pos
    rw [Array.size_extract, hfsize, quotientLength]
    omega

end

/-- **The identity of the columns.**  At the point where the columns were evaluated, the quotient
times the vanishing polynomial is what the columns come to on the wires. -/
theorem Divides.eval_eq {z : Nat → Fp K} {h : Array (Fp K)} (divides : Divides s d z h)
    {tau : Fp K} {q : Evaluations K} (evaluated : Evaluated s d tau q) :
    (∑ i ∈ range s.numWires, vectorAt q.u i * z i) * (∑ i ∈ range s.numWires, vectorAt q.v i * z i) -
      ∑ i ∈ range s.numWires, vectorAt q.w i * z i =
        (∑ j ∈ range h.size, vectorAt h j * tau ^ j) * q.vanishing := by
  obtain ⟨A, B, C, hA, hB, hC, hfactors⟩ := divides.factors
  have hvalue := congrArg (eval tau) hfactors
  rw [eval_sub, eval_mul, eval_mul, Domain.eval_vanishing, eval_polynomialOf] at hvalue
  rw [evaluated.sum_u z A hA, evaluated.sum_v z B hB, evaluated.sum_w z C hC, hvalue,
    evaluated.vanishing, Domain.vanishingAt]

end Qap

end Groth16
