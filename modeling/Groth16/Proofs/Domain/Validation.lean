import Groth16.Domain.InPlace
import Groth16.Proofs.Domain.Inversion

/-!
# What the check of a domain is worth

The three parts of a domain are given by its caller, who can have them checked.  The check asks for a
root whose power of the size is one, and whose power of half the size is not, and for a shift outside
of the subgroup.  If the size is a power of two and the shift is not zero, this is all that the
transforms need.  The check asks for neither: a size that is no power of two passes it, although the
transforms have no passes for such vectors, and so does the shift zero, which has no inverse.

* `Domain.Transforms`: the root has the order of the size, and the transforms undo each other.
* `Domain.Valid.transforms`: valid domains have both.
* `Domain.ntt_of_not_twoPower`, `cosetNtt_of_not_twoPower`: without a power of two, to transform a
  vector is a breach.
* `Domain.callOn_cosetInttInPlace_of_shift`: with the shift zero, the inverse over the coset is
  reported after the vector has been written over.
* `Domain.validated_transforms`: what the check is worth.
* `Domain.sixPoints`: a domain of six points that passes the check.
-/

set_option autoImplicit false

namespace Groth16

variable {K : PrimeField}

namespace Domain

/-- The root has the order of the size, and on vectors of this size the transforms succeed and undo
each other. -/
structure Transforms (d : Domain K) : Prop where
  /-- The root has exactly the order of the size. -/
  order : orderOf d.root = d.size
  /-- Coefficients are found again from the values over the subgroup. -/
  ntt_intt : ∀ a : Array (Fp K), a.size = d.size → (d.ntt a >>= d.intt) = .ok a
  /-- Values over the subgroup are found again from the coefficients. -/
  intt_ntt : ∀ e : Array (Fp K), e.size = d.size → (d.intt e >>= d.ntt) = .ok e
  /-- Coefficients are found again from the values over the coset. -/
  cosetNtt_cosetIntt : ∀ a : Array (Fp K), a.size = d.size → (d.cosetNtt a >>= d.cosetIntt) = .ok a
  /-- Values over the coset are found again from the coefficients. -/
  cosetIntt_cosetNtt : ∀ e : Array (Fp K), e.size = d.size → (d.cosetIntt e >>= d.cosetNtt) = .ok e

section
variable [Fact K.modulus.Prime] {d : Domain K}

theorem Valid.transforms (h : d.Valid) : d.Transforms := by
  have plain : d.EvaluatesAt (d.root ^ ·) d.ntt := h.ntt_ok
  have plainBack : d.InterpolatesAt (d.root ^ ·) d.intt := h.intt_ok
  have coset : d.EvaluatesAt (d.shift * d.root ^ ·) d.cosetNtt := h.cosetNtt_ok
  have cosetBack : d.InterpolatesAt (d.shift * d.root ^ ·) d.cosetIntt := h.cosetIntt_ok
  exact
    { order := h.primitive.eq_orderOf.symm
      ntt_intt := fun _ size => plain.undone plainBack h.injOn_root size
      intt_ntt := fun _ size => plainBack.undone plain size
      cosetNtt_cosetIntt := fun _ size => coset.undone cosetBack h.injOn_coset size
      cosetIntt_cosetNtt := fun _ size => cosetBack.undone coset size }

end

/-! ## What the check lets pass -/

section
variable {d : Domain K} {a : Array (Fp K)}

theorem transform?_eq_none (root : Fp K) (h : ¬∃ k, a.size = 2 ^ k) : transform? root a = none := by
  rw [transform?, if_neg (mt (isTwoPower_iff _).1 h)]

theorem exists_inverseTransform? (root : Fp K) {k : Nat} (size : a.size = 2 ^ k) :
    ∃ b, inverseTransform? root a = some b := by
  rw [inverseTransform?]
  split
  · rw [transform?_eq_some _ size]
    exact ⟨_, rfl⟩
  · exact ⟨a, rfl⟩

/-- Without a power of two, there is no transform of a vector. -/
theorem ntt_of_not_twoPower (h : ¬∃ k, d.size = 2 ^ k) (size : a.size = d.size) :
    d.ntt a = Outcome.breach := by
  rw [← size] at h
  rw [ntt, ofLength, if_neg (not_not.2 size), transform?_eq_none _ h]
  rfl

theorem cosetNtt_of_not_twoPower (h : ¬∃ k, d.size = 2 ^ k) (size : a.size = d.size) :
    d.cosetNtt a = Outcome.breach := by
  have h' : ¬∃ k, (scaleByPowers d.shift a).size = 2 ^ k := by
    rwa [size_scaleByPowers, size]
  rw [cosetNtt, ofLength, if_neg (not_not.2 size), transform?_eq_none _ h']
  rfl

/-- With the shift zero, the inverse over the coset has written the inverse over the subgroup before
it finds that the shift has no inverse. -/
theorem callOn_cosetInttInPlace_of_shift {k : Nat} (hk : d.size = 2 ^ k) (shift : d.shift = 0)
    (size : a.size = d.size) :
    ∃ b, d.intt a = .ok b ∧
      d.cosetInttInPlace.callOn a = (Outcome.report .shiftInDomain, b) := by
  obtain ⟨b, hb⟩ := exists_inverseTransform? d.root (size.trans hk)
  refine ⟨b, ?_, ?_⟩
  · rw [intt, ofLength, if_neg (not_not.2 size), hb]
    rfl
  · rw [cosetInttInPlace, callOn_onLength_of_eq size, InPlace.callOn_seq, InPlace.callOn_write, hb,
      Fp.inverse?_eq_none_iff.2 shift]
    rfl

end

/-! ## What the check is worth -/

/-- **What the check of a domain is worth.**  If a domain of a power of two points passes the check,
and its shift is not zero, then the root has exactly the order of the size, and on vectors of this
size all four transforms succeed and undo each other.  On vectors of another length, each of them
reports the two lengths and leaves the vector as it is, whatever the domain.  The check does not ask
for the two conditions: without a power of two, the forward transforms are a breach on all vectors of
the size, and with the shift zero, the inverse over the coset is reported after it has written over
the vector. -/
theorem validated_transforms [Fact K.modulus.Prime] {d : Domain K} (bits : d.size < 2 ^ 64)
    (checked : d.validate = .ok ()) :
    ((∃ k, d.size = 2 ^ k) → d.shift ≠ 0 → d.Transforms) ∧
    (∀ t ∈ d.transforms, ∀ a : Array (Fp K), t.1.written a = t.2 a ∧
      (a.size ≠ d.size → t.1.callOn a = (Outcome.report (.badLength a.size d.size), a))) ∧
    ((¬∃ k, d.size = 2 ^ k) → ∀ a : Array (Fp K), a.size = d.size →
      d.ntt a = Outcome.breach ∧ d.cosetNtt a = Outcome.breach) ∧
    ((∃ k, d.size = 2 ^ k) → d.shift = 0 → ∀ a : Array (Fp K), a.size = d.size →
      ∃ b, d.intt a = .ok b ∧
        d.cosetInttInPlace.callOn a = (Outcome.report .shiftInDomain, b)) := by
  refine ⟨?_, fun t ht a => ⟨written_of_mem_transforms ht a, callOn_of_size_ne ht⟩,
    fun h a size => ⟨ntt_of_not_twoPower h size, cosetNtt_of_not_twoPower h size⟩, ?_⟩
  · rintro ⟨k, hk⟩ shift
    have hbits : k < 64 := by
      rw [hk] at bits
      exact (Nat.pow_lt_pow_iff_right Nat.one_lt_two).1 bits
    exact (Valid.of_validate hbits hk shift checked).transforms
  · rintro ⟨k, hk⟩ shift a size
    exact callOn_cosetInttInPlace_of_shift hk shift size

/-- Two points, with a shift of the caller's choice. -/
def twoPoints (shift : Fp bn254Scalar) : Domain bn254Scalar := ⟨2, -1, shift⟩

/-- Two points with the shift five have all transforms, and three entries are left as they are.  With
the shift zero, the inverse over the coset has written over the vector when it is reported. -/
theorem validated_transforms_sample :
    ((twoPoints 5).validate = .ok () ∧ (twoPoints 5).Transforms ∧
      (twoPoints 5).nttInPlace.callOn #[1, 2, 3] =
        (Outcome.report (.badLength 3 2), #[1, 2, 3])) ∧
    (twoPoints 0).validate = .ok () ∧
      ∃ b, (twoPoints 0).intt #[1, 2] = .ok b ∧
        (twoPoints 0).cosetInttInPlace.callOn #[1, 2] = (Outcome.report .shiftInDomain, b) := by
  have five : (twoPoints 5).validate = .ok () := by decide +kernel
  have zero : (twoPoints 0).validate = .ok () := by decide +kernel
  obtain ⟨transforms, calls, -⟩ := validated_transforms (by decide) five
  obtain ⟨-, -, -, reported⟩ := validated_transforms (by decide) zero
  obtain ⟨-, unwritten⟩ := calls _ List.mem_cons_self #[1, 2, 3]
  exact ⟨⟨five, transforms ⟨1, rfl⟩ (by decide +kernel), unwritten (by decide)⟩, zero,
    reported ⟨1, rfl⟩ rfl #[1, 2] rfl⟩

/-- Six points, with a root of order two, and with the generator of the field as the shift. -/
def sixPoints : Domain bn254Scalar := ⟨6, -1, Fp.ofNat bn254Scalar bn254Scalar.generator⟩

/-- The six points pass the check, although six is no power of two and not the order of the root, and
a vector of six scalars has no transform. -/
theorem sixPoints_pass :
    sixPoints.validate = .ok () ∧ (¬∃ k, sixPoints.size = 2 ^ k) ∧
      orderOf sixPoints.root ≠ sixPoints.size ∧
      sixPoints.ntt #[1, 2, 3, 4, 5, 6] = Outcome.breach := by
  have hsize : ¬∃ k, sixPoints.size = 2 ^ k := by
    rw [← isTwoPower_iff]
    decide
  have horder : orderOf sixPoints.root ≤ 2 :=
    orderOf_le_of_pow_eq_one Nat.zero_lt_two (by decide +kernel)
  refine ⟨by decide +kernel, hsize, ?_, ntt_of_not_twoPower hsize rfl⟩
  exact Nat.ne_of_lt (horder.trans_lt (by decide))

end Domain

end Groth16
