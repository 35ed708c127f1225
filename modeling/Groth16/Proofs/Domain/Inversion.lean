import Groth16.Proofs.Domain.Interpolation
import Groth16.Proofs.Field.Known
import Groth16.Proofs.Outcome

/-!
# The transforms of a domain that is built

A domain that is built is valid, so its transforms convert between the coefficients of a polynomial
and its values: at the points of the subgroup for the plain pair, and at the points of the coset for
the other.  This file states what that means for the vectors, without a polynomial.

* `Domain.transforms_evaluate`: an entry of a forward transform is the sum of the coefficients times
  the powers of its point.
* `Domain.EvaluatesAt`, `Domain.InterpolatesAt`: a transform gives values at a list of points, or
  takes them.
* `Domain.EvaluatesAt.undone`, `Domain.InterpolatesAt.undone`: two such transforms over one list of
  distinct points undo each other.
* `Domain.transforms_invert`: this is so of the plain pair and of the coset pair.
-/

set_option autoImplicit false

namespace Groth16

open Finset Polynomial

variable {K : PrimeField}

namespace Domain

variable [Fact K.modulus.Prime] {d : Domain K} {a : Array (Fp K)}

/-! ## Values -/

/-- **Forward transforms are polynomial evaluation.**  Over every domain that is built, entry `i` of
the transform of a vector of its size is the sum over `j` of `a_j · ω^(i·j)`, and entry `i` of the
transform over the coset is the sum over `j` of `a_j · (g · ω^i)^j`. -/
theorem transforms_evaluate {n : Nat} (built : ofSize K n = .ok d) (size : a.size = d.size) :
    ∃ e f, d.ntt a = .ok e ∧ e.size = d.size ∧ d.cosetNtt a = .ok f ∧ f.size = d.size ∧
      ∀ i < d.size,
        e[i]? = some (∑ j ∈ range d.size, vectorAt a j * d.root ^ (i * j)) ∧
        f[i]? = some (∑ j ∈ range d.size, vectorAt a j * (d.shift * d.root ^ i) ^ j) := by
  have valid := (ofSize_valid built).1
  obtain ⟨e, he, esize, evalues⟩ := valid.ntt_ok size
  obtain ⟨f, hf, fsize, fvalues⟩ := valid.cosetNtt_ok size
  refine ⟨e, f, he, esize, hf, fsize, fun i hi => ⟨?_, ?_⟩⟩
  · rw [getElem?_eq_vectorAt (by rwa [esize]), evalues i hi, eval_polynomialOf, size]
    simp only [pow_mul]
  · rw [getElem?_eq_vectorAt (by rwa [fsize]), fvalues i hi, eval_polynomialOf, size]

/-- There is a domain of four scalars of BN254. -/
theorem exists_ofSize_bn254 : ∃ d, ofSize bn254Scalar 3 = .ok d ∧ d.size = 4 := by
  have hsize : (ofSize bn254Scalar 3).map size = .ok 4 := by decide +kernel
  exact Outcome.map_eq_ok.1 hsize

/-- The transforms of a vector of four scalars of BN254. -/
theorem transforms_evaluate_sample :
    ∃ (d : Domain bn254Scalar) (e f : Array (Fp bn254Scalar)),
      ofSize bn254Scalar 3 = .ok d ∧ d.size = 4 ∧ d.ntt #[1, 2, 3, 4] = .ok e ∧
        d.cosetNtt #[1, 2, 3, 4] = .ok f ∧
        e[1]? = some (∑ j ∈ range d.size, vectorAt #[1, 2, 3, 4] j * d.root ^ (1 * j)) ∧
        f[1]? =
          some (∑ j ∈ range d.size, vectorAt #[1, 2, 3, 4] j * (d.shift * d.root ^ 1) ^ j) := by
  obtain ⟨d, built, size⟩ := exists_ofSize_bn254
  obtain ⟨e, f, he, -, hf, -, values⟩ := transforms_evaluate (a := #[1, 2, 3, 4]) built size.symm
  obtain ⟨evalue, fvalue⟩ := values 1 (by omega)
  exact ⟨d, e, f, built, size, he, hf, evalue, fvalue⟩

/-! ## Transforms and their inverses -/

/-- The transform takes the coefficients of a polynomial to its values at the points. -/
def EvaluatesAt (d : Domain K) (points : Nat → Fp K)
    (forward : Array (Fp K) → Outcome DomainError (Array (Fp K))) : Prop :=
  ∀ {a : Array (Fp K)}, a.size = d.size →
    ∃ b, forward a = .ok b ∧ b.size = d.size ∧
      ∀ i < d.size, vectorAt b i = (polynomialOf a).eval (points i)

/-- The transform takes the values of a polynomial at the points to its coefficients. -/
def InterpolatesAt (d : Domain K) (points : Nat → Fp K)
    (backward : Array (Fp K) → Outcome DomainError (Array (Fp K))) : Prop :=
  ∀ {e : Array (Fp K)}, e.size = d.size →
    ∃ b, backward e = .ok b ∧ b.size = d.size ∧
      ∀ i < d.size, (polynomialOf b).eval (points i) = vectorAt e i

section
variable {points : Nat → Fp K}
  {forward backward : Array (Fp K) → Outcome DomainError (Array (Fp K))}

/-- Vectors of the size of the domain are equal if their polynomials agree on distinct points. -/
theorem Valid.eq_of_values_eq {b : Array (Fp K)} (inj : Set.InjOn points (range d.size : Set Nat))
    (asize : a.size = d.size) (bsize : b.size = d.size)
    (h : ∀ i < d.size, (polynomialOf a).eval (points i) = (polynomialOf b).eval (points i)) :
    a = b := by
  have hpoly : polynomialOf a = polynomialOf b := by
    refine eq_of_eval_eq inj ?_ ?_ h
    · rw [← asize]
      exact degree_polynomialOf_lt a
    · rw [← bsize]
      exact degree_polynomialOf_lt b
  refine ext_vectorAt (asize.trans bsize.symm) fun i _ => ?_
  rw [← coeff_polynomialOf, hpoly, coeff_polynomialOf]

/-- Coefficients are found again from the values. -/
theorem EvaluatesAt.undone (evaluates : d.EvaluatesAt points forward)
    (interpolates : d.InterpolatesAt points backward)
    (inj : Set.InjOn points (range d.size : Set Nat)) (size : a.size = d.size) :
    (forward a >>= backward) = .ok a := by
  obtain ⟨b, hb, bsize, bvalues⟩ := evaluates size
  obtain ⟨c, hc, csize, cvalues⟩ := interpolates bsize
  have hca : c = a := by
    refine Valid.eq_of_values_eq inj csize size fun i hi => ?_
    rw [cvalues i hi, bvalues i hi]
  rw [hb, ← hca]
  exact hc

omit [Fact K.modulus.Prime] in
/-- Values are found again from the coefficients. -/
theorem InterpolatesAt.undone (interpolates : d.InterpolatesAt points backward)
    (evaluates : d.EvaluatesAt points forward) (size : a.size = d.size) :
    (backward a >>= forward) = .ok a := by
  obtain ⟨b, hb, bsize, bvalues⟩ := interpolates size
  obtain ⟨c, hc, csize, cvalues⟩ := evaluates bsize
  have hca : c = a := by
    refine ext_vectorAt (csize.trans size.symm) fun i hi => ?_
    rw [cvalues i (by rwa [← csize]), bvalues i (by rwa [← csize])]
  rw [hb, ← hca]
  exact hc

end

/-- **The inverse transforms undo the transforms, and the transforms undo them.**  Over every domain
that is built, and for every vector of its size, both orders of both pairs succeed and give the
vector back.  The inverse transform always gets to its second half, because the root and the size
have inverses, and so does the inverse over the coset, because the shift has one. -/
theorem transforms_invert {n : Nat} (built : ofSize K n = .ok d) (size : a.size = d.size) :
    (d.ntt a >>= d.intt) = .ok a ∧ (d.intt a >>= d.ntt) = .ok a ∧
      (d.cosetNtt a >>= d.cosetIntt) = .ok a ∧ (d.cosetIntt a >>= d.cosetNtt) = .ok a ∧
      (∃ rootInv sizeInv, d.root.inverse? = some rootInv ∧
        (Fp.ofNat K a.size).inverse? = some sizeInv ∧
        inverseTransform? d.root a = some ((transform rootInv a).map (· * sizeInv))) ∧
      ∃ shiftInv, d.shift.inverse? = some shiftInv := by
  have valid := (ofSize_valid built).1
  have hroot := Fp.inverse?_eq_some valid.root_ne_zero
  have hshift := Fp.inverse?_eq_some valid.shift_ne_zero
  have hsize : (Fp.ofNat K a.size).inverse? = some (Fp.ofNat K a.size)⁻¹ := by
    refine Fp.inverse?_eq_some ?_
    rw [Fp.ofNat_eq_natCast, size]
    exact valid.natCast_size_ne_zero
  obtain ⟨k, -, hk⟩ := valid.twoPower
  have plain : d.EvaluatesAt (d.root ^ ·) d.ntt := valid.ntt_ok
  have plainBack : d.InterpolatesAt (d.root ^ ·) d.intt := valid.intt_ok
  have coset : d.EvaluatesAt (d.shift * d.root ^ ·) d.cosetNtt := valid.cosetNtt_ok
  have cosetBack : d.InterpolatesAt (d.shift * d.root ^ ·) d.cosetIntt := valid.cosetIntt_ok
  refine ⟨plain.undone plainBack valid.injOn_root size, plainBack.undone plain size,
    coset.undone cosetBack valid.injOn_coset size, cosetBack.undone coset size,
    ⟨_, _, hroot, hsize, ?_⟩, _, hshift⟩
  rw [inverseTransform?, hroot, hsize]
  dsimp only
  rw [transform?_eq_some _ (size.trans hk), Option.map_some]

/-- The transforms of a vector of four scalars of BN254, undone. -/
theorem transforms_invert_sample :
    ∃ d : Domain bn254Scalar, ofSize bn254Scalar 3 = .ok d ∧ d.size = 4 ∧
      (d.ntt #[1, 2, 3, 4] >>= d.intt) = .ok #[1, 2, 3, 4] ∧
      (d.cosetIntt #[1, 2, 3, 4] >>= d.cosetNtt) = .ok #[1, 2, 3, 4] := by
  obtain ⟨d, built, size⟩ := exists_ofSize_bn254
  obtain ⟨plain, -, -, coset, -⟩ := transforms_invert (a := #[1, 2, 3, 4]) built size.symm
  exact ⟨d, built, size, plain, coset⟩

end Domain

end Groth16
