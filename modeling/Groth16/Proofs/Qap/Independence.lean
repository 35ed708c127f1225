import Groth16.Proofs.Domain.Lagrange
import Groth16.Proofs.Qap.Exactness

/-!
# The instance polynomials are independent

Behind the constraints a system has one row for each instance wire, with this wire as the first
factor.  On the point of such a row, the first polynomial of its wire is one and that of every other
wire is zero, whatever the constraints do with the wires.  So a combination of the first polynomials
of all wires that is zero has no instance polynomial in it, and that it is zero can be seen outside of
the domain.

* `Qap.Relation`: coefficients with which the first columns add up to zero, outside of the domain.
* `Qap.relation_update`: a column that is a combination of the others gives a relation.
* `Qap.listAt_factorsA_instance`: the first factor of an instance row is its wire.
* `Qap.evaluateAt_cases`: outside of the domain, the columns are evaluated.
* `Qap.relation_iff`: the relations are the vectors on which the first factors of all rows are zero.
* `Qap.Relation.eq_zero`: in a relation, the coefficients of the instance wires are zero.
* `instance_polynomials_independent`: all of this, for compiled systems and their domains.
-/

set_option autoImplicit false

namespace Groth16

variable {K : PrimeField}

open Finset Polynomial

namespace Qap

variable {s : ConstraintSystem K} {d : Domain K} {c : Nat → Fp K}

/-- **A relation between the first columns**: at every point outside of the domain, the columns are
evaluated, and with the coefficients they add up to zero. -/
def Relation (s : ConstraintSystem K) (d : Domain K) (c : Nat → Fp K) : Prop :=
  ∀ tau ∉ d.elements, ∃ q, evaluateAt s d tau = .ok q ∧
    ∑ j ∈ range s.numWires, c j * vectorAt q.u j = 0

/-- The first factor of an instance row is its wire. -/
theorem listAt_factorsA_instance (z : Nat → Fp K) {i : Nat} (h : i < s.numInstance) :
    listAt (factorsA s z) (s.numConstraints + i) = z i := by
  rw [factorsA, ← length_rowValues (·.a) s z, listAt_append_right]
  exact listAt_of_getElem? (by rw [List.getElem?_map, List.getElem?_range h, Option.map_some])

/-- A column that is a combination of the others gives a relation, with minus one as its own
coefficient. -/
theorem relation_update {i : Nat} (h : i < s.numWires)
    (span : ∀ tau ∉ d.elements, ∃ q, evaluateAt s d tau = .ok q ∧
      vectorAt q.u i = ∑ j ∈ (range s.numWires).erase i, c j * vectorAt q.u j) :
    Relation s d (Function.update c i (-1)) := by
  intro tau outside
  obtain ⟨q, hq, hspan⟩ := span tau outside
  have hothers : ∀ j ∈ (range s.numWires).erase i,
      Function.update c i (-1) j * vectorAt q.u j = c j * vectorAt q.u j := by
    intro j hj
    rw [Function.update_of_ne (ne_of_mem_erase hj)]
  refine ⟨q, hq, ?_⟩
  rw [← add_sum_erase _ _ (mem_range.2 h), sum_congr rfl hothers, ← hspan, Function.update_self,
    neg_one_mul, neg_add_cancel]

section
variable [Fact K.modulus.Prime]

/-- Outside of the domain the columns are evaluated, unless its points cannot be held. -/
theorem evaluateAt_cases (valid : d.Valid) (rows : numRows s ≤ d.size)
    (below : ∀ c ∈ s.constraints.toList, c.Below s.numWires) (inside : s.numInstance ≤ s.numWires)
    {tau : Fp K} (outside : tau ∉ d.elements) :
    (∃ q, evaluateAt s d tau = .ok q) ∨
      Domain.maxListed < d.size ∧ evaluateAt s d tau = Outcome.breach := by
  rcases Nat.lt_or_ge Domain.maxListed d.size with large | listed
  · refine .inr ⟨large, ?_⟩
    rw [evaluateAt, valid.lagrangeAt_eq_breach outside large]
    rfl
  · have htau : tau ^ d.size ≠ 1 := fun hone => outside (valid.mem_elements_iff.2 hone)
    exact .inl (evaluateAt_ok rows listed below inside htau)

/-- Where a polynomial interpolates the first factors on the coefficients, the columns add up to its
value. -/
theorem Evaluated.sum_mul_u {tau : Fp K} {q : Evaluations K} (evaluated : Evaluated s d tau q)
    {P : (Fp K)[X]} (hP : d.Interpolates (factorsA s c) P) :
    ∑ j ∈ range s.numWires, c j * vectorAt q.u j = P.eval tau := by
  rw [← evaluated.sum_u c P hP]
  exact sum_congr rfl fun j _ => mul_comm _ _

/-- In a relation, the first factors of all rows are zero. -/
theorem Relation.factorsA_eq_zero (relation : Relation s d c) (valid : d.Valid)
    (rows : numRows s ≤ d.size) (i : Nat) : listAt (factorsA s c) i = 0 := by
  have hlength : (factorsA s c).length ≤ d.size := by rwa [length_factorsA]
  obtain ⟨P, hP⟩ := valid.exists_interpolates hlength
  -- The points of the coset are outside of the domain, and there are enough of them.
  have hzero : P = 0 := by
    refine Domain.Valid.eq_of_eval_eq valid.injOn_coset hP.degree_lt ?_ fun j _ => ?_
    · rw [degree_zero]
      exact WithBot.bot_lt_coe d.size
    · obtain ⟨q, hq, hsum⟩ := relation _ (valid.coset_notMem_elements j)
      rw [← (evaluateAt_eq_ok valid hq).sum_mul_u hP, hsum, eval_zero]
  by_cases hi : i < d.size
  · rw [← hP.eval_root i hi, hzero, eval_zero]
  · exact listAt_of_length_le (by rw [length_factorsA]; omega)

/-- **In a relation, the coefficients of the instance wires are zero.** -/
theorem Relation.eq_zero (relation : Relation s d c) (valid : d.Valid)
    (rows : numRows s ≤ d.size) {i : Nat} (h : i < s.numInstance) : c i = 0 := by
  rw [← listAt_factorsA_instance c h]
  exact relation.factorsA_eq_zero valid rows _

/-- If the columns are evaluated at every point outside of the domain, the relations are the vectors
on which the first factors of all rows are zero. -/
theorem relation_iff (valid : d.Valid) (rows : numRows s ≤ d.size)
    (columns : ∀ tau ∉ d.elements, ∃ q, evaluateAt s d tau = .ok q) :
    Relation s d c ↔ ∀ i, listAt (factorsA s c) i = 0 := by
  refine ⟨fun relation => relation.factorsA_eq_zero valid rows, fun factors tau outside => ?_⟩
  obtain ⟨q, hq⟩ := columns tau outside
  have hP : d.Interpolates (factorsA s c) 0 := by
    refine ⟨?_, fun i _ => by rw [eval_zero, factors]⟩
    rw [degree_zero]
    exact WithBot.bot_lt_coe d.size
  exact ⟨q, hq, by rw [(evaluateAt_eq_ok valid hq).sum_mul_u hP, eval_zero]⟩

end

end Qap

/-- **The instance polynomials are independent** of each other and of those of all other wires.  Let
`r` be a compiled system with its domain.  At every point outside of the domain the columns of all
wires are evaluated, unless the points of the domain cannot be held in memory.  If the first columns,
each times a coefficient, add up to zero at all of these points, then the coefficients of the one-wire
and of all public wires are zero.  So no instance column is a combination of the columns of the other
wires. -/
theorem instance_polynomials_independent [Fact K.modulus.Prime] {c : Circuit K} {modulus : Modulus}
    {session : Nat} {calls : List (Call K)} {r : R1CS K}
    (compilation : Compilation c modulus session calls r) {d : Domain K}
    (built : Qap.domainFor r.toConstraintSystem = .ok d) :
    (∀ tau ∉ d.elements,
      (∃ q, Qap.evaluateAt r.toConstraintSystem d tau = .ok q ∧ q.u.size = r.numWires) ∨
        Domain.maxListed < d.size ∧
          Qap.evaluateAt r.toConstraintSystem d tau = Outcome.breach) ∧
    (∀ coeff : Nat → Fp K, Qap.Relation r.toConstraintSystem d coeff →
      ∀ i < r.numInstance, coeff i = 0) ∧
    ∀ i < r.numInstance, ∀ coeff : Nat → Fp K,
      ¬ ∀ tau ∉ d.elements, ∃ q, Qap.evaluateAt r.toConstraintSystem d tau = .ok q ∧
        vectorAt q.u i = ∑ j ∈ (range r.numWires).erase i, coeff j * vectorAt q.u j := by
  obtain ⟨ops, recorded, -⟩ := compilation.exists_recorded
  obtain ⟨valid, rows⟩ := Domain.ofSize_valid built
  have inside := recorded.numInstance_le
  refine ⟨fun tau outside => ?_, fun coeff relation i hi => relation.eq_zero valid rows hi,
    fun i hi coeff span => ?_⟩
  · rcases Qap.evaluateAt_cases valid rows recorded.records.below inside outside with
      ⟨q, hq⟩ | large
    · exact .inl ⟨q, hq, (Qap.evaluateAt_eq_ok valid hq).size_u⟩
    · exact .inr large
  · have relation : Qap.Relation r.toConstraintSystem d (Function.update coeff i (-1)) :=
      Qap.relation_update (hi.trans_le inside) span
    have hone := relation.eq_zero valid rows hi
    rw [Function.update_self, neg_eq_zero] at hone
    exact one_ne_zero hone

/-! ## A relation -/

namespace Sample

/-- The coefficient one for the wire that holds the inverse of `x`, which is no first factor. -/
def inverseWire (i : Nat) : Fp field := if i = 3 then 1 else 0

theorem relation_inverseWire {r : R1CS field}
    (h : Compilation circuit field.descriptor 1 calls r) :
    Qap.Relation r.toConstraintSystem domain inverseWire := by
  obtain ⟨valid, rows⟩ := Domain.ofSize_valid (domainFor_eq h)
  obtain ⟨ops, recorded, hcalls⟩ := h.exists_recorded
  obtain ⟨rfl, -⟩ := hcalls (successful_callsOf 1 3 operations)
  have hfactors : Qap.factorsA r.toConstraintSystem inverseWire = List.replicate 24 0 := by
    rw [Qap.factorsA, Qap.rowValues, recorded.records.constraints, ConstraintSystem.numInstance,
      ConstraintSystem.numPublic, h.names.1, firstInternal_eq h]
    decide +kernel
  refine (Qap.relation_iff valid rows fun tau outside => ?_).2 fun i => ?_
  · rcases Qap.evaluateAt_cases valid rows recorded.records.below recorded.numInstance_le outside
      with columns | ⟨large, -⟩
    · exact columns
    · exact absurd large (by decide)
  · rw [hfactors, ← List.nil_append (List.replicate 24 0), listAt_append_replicate, listAt_nil]

end Sample

/-- In the circuit there is a relation, of a wire that is not an instance wire, and the column of the
public input `y` is not the sum of all others. -/
theorem instance_polynomials_independent_sample :
    ∃ r, Compilation Sample.circuit Sample.field.descriptor 1 Sample.calls r ∧
      Qap.domainFor r.toConstraintSystem = .ok Sample.domain ∧
      Qap.Relation r.toConstraintSystem Sample.domain Sample.inverseWire ∧
      Sample.inverseWire 1 = 0 ∧
      ¬ ∀ tau ∉ Sample.domain.elements,
        ∃ q, Qap.evaluateAt r.toConstraintSystem Sample.domain tau = .ok q ∧
          vectorAt q.u 1 = ∑ j ∈ (range r.numWires).erase 1, 1 * vectorAt q.u j := by
  obtain ⟨r, hr⟩ := Sample.exists_compilation
  have built := Sample.domainFor_eq hr
  have relation := Sample.relation_inverseWire hr
  obtain ⟨-, zero, span⟩ := instance_polynomials_independent hr built
  have hpublic : 1 < r.numInstance := by
    rw [ConstraintSystem.numInstance, ConstraintSystem.numPublic, hr.names.1]
    decide
  exact ⟨r, hr, built, relation, zero _ relation 1 hpublic, span 1 hpublic fun _ => 1⟩

end Groth16
