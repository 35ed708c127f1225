import Groth16.Proofs.Circuit.Witnesses
import Groth16.Proofs.Protocol.Checks
import Groth16.Proofs.Protocol.Draws
import Groth16.Proofs.Protocol.Setup
import Groth16.Proofs.Qap.Quotient

/-!
# What the prover gives

All points of a key are known multiples of the generators, so those of a proof are, too.  This file
computes the scalars, and shows the equation between them on which both the acceptance of proofs and
their independence of the witness rest.

* `scalarA`, `scalarB`, `scalarC`: the multiples of the generators that a proof consists of.
* `proofOf_eq`: the proof for a vector of wires, its quotient and blinding scalars.
* `scalarC_mul_delta`: the third scalar is determined by the other two and the instance wires.
* `prepareProof_ok`: for a witness of the system, all checks pass and the quotient is found.
* `runOn_prove`: the run of the prover on a source that answers twice.
-/

set_option autoImplicit false

namespace Groth16

open Finset

variable {K : PrimeField} {G₁ G₂ : Type} [ScalarGroup K G₁] [ScalarGroup K G₂]

/-! ## Scalars -/

/-- The scalar of the first point, with blinding scalar `r`. -/
def scalarA (t : ToxicWaste K) (q : Qap.Evaluations K) (z : Nat → Fp K) (r : Fp K) : Fp K :=
  t.alpha + ∑ i ∈ range q.u.size, vectorAt q.u i * z i + r * t.delta

/-- The scalar of the second point, with blinding scalar `s`. -/
def scalarB (t : ToxicWaste K) (q : Qap.Evaluations K) (z : Nat → Fp K) (s : Fp K) : Fp K :=
  t.beta + ∑ i ∈ range q.v.size, vectorAt q.v i * z i + s * t.delta

/-- What the instance wires contribute to the equation of a proof. -/
def instanceScalar (t : ToxicWaste K) (q : Qap.Evaluations K) (z : Nat → Fp K) (n : Nat) : Fp K :=
  ∑ i ∈ range n, combinedAt t q i * z i

section
variable [prime : Fact K.modulus.Prime] {s : R1CS K} {t : ToxicWaste K} {d : Domain K}
  {q : Qap.Evaluations K} {pk : ProvingKey G₁ G₂}

/-- The scalar of the third point, with `n` instance wires and the quotient `h`. -/
def scalarC (t : ToxicWaste K) (q : Qap.Evaluations K) (z : Nat → Fp K) (n : Nat) (h : Array (Fp K))
    (r s : Fp K) : Fp K :=
  (∑ i ∈ range (q.u.size - n), combinedAt t q (n + i) * z (n + i)) * t.delta⁻¹ +
    (∑ j ∈ range h.size, vectorAt h j * t.tau ^ j) * q.vanishing * t.delta⁻¹ +
    s * scalarA t q z r + r * scalarB t q z s - r * s * t.delta

/-- **The third scalar is determined by the other two and the instance wires.**  Here enters that
the wires satisfy the system. -/
theorem scalarC_mul_delta (keys : Generated s t d q pk) (inside : s.numInstance ≤ s.numWires)
    {z : Nat → Fp K} {h : Array (Fp K)} (divides : Qap.Divides s.toConstraintSystem d z h)
    (x y : Fp K) : scalarC t q z s.numInstance h x y * t.delta =
      scalarA t q z x * scalarB t q z y - t.alpha * t.beta - instanceScalar t q z s.numInstance := by
  obtain ⟨-, -, hu, hv, hw, -, -, -, -⟩ := id keys.evaluated
  have hidentity := divides.eval_eq keys.evaluated
  have hsum : instanceScalar t q z s.numInstance +
      ∑ i ∈ range (s.numWires - s.numInstance),
        combinedAt t q (s.numInstance + i) * z (s.numInstance + i) =
      t.beta * (∑ i ∈ range s.numWires, vectorAt q.u i * z i) +
        t.alpha * (∑ i ∈ range s.numWires, vectorAt q.v i * z i) +
        ∑ i ∈ range s.numWires, vectorAt q.w i * z i := by
    rw [instanceScalar, ← sum_range_add, Nat.add_sub_cancel' inside, mul_sum, mul_sum,
      ← sum_add_distrib, ← sum_add_distrib]
    refine sum_congr rfl fun i _ => ?_
    rw [combinedAt]
    ring
  have hprivate := eq_sub_of_add_eq' hsum
  rw [scalarC, hu, hprivate, ← hidentity, scalarA, scalarB, hu, hv]
  field_simp [keys.delta_ne_zero]
  ring

end

/-! ## Points -/

section
variable [prime : Fact K.modulus.Prime] [left : LawfulScalarGroup K G₁]
  [right : LawfulScalarGroup K G₂] {s : R1CS K} {t : ToxicWaste K} {d : Domain K}
  {q : Qap.Evaluations K} {pk : ProvingKey G₁ G₂} {z h : Array (Fp K)}

omit right in
/-- The sum over the private wires. -/
theorem msm_privatePoints (keys : Generated s t d q pk) (workers : Nat) :
    msm workers pk.privatePoints (z.toList.drop s.numInstance) =
      ((∑ i ∈ range (q.u.size - s.numInstance),
        combinedAt t q (s.numInstance + i) * vectorAt z (s.numInstance + i)) * t.delta⁻¹) •
        (ScalarGroup.generator : G₁) := by
  obtain ⟨-, -, hu, hv, hw, -, -, -, -⟩ := id keys.evaluated
  have hlength : (((combined t q).drop s.numInstance).map (· * t.delta⁻¹)).length =
      q.u.size - s.numInstance := by
    rw [List.length_map, List.length_drop, length_combined hu hv hw, hu]
  rw [keys.keys]
  change msm workers (fixedBase _ (((combined t q).drop s.numInstance).map (· * t.delta⁻¹))) _ = _
  rw [msm_fixedBase, hlength, sum_mul]
  congr 1
  refine sum_congr rfl fun i hi => ?_
  rw [hu] at hi
  have hi := mem_range.1 hi
  have hpoint : listAt (((combined t q).drop s.numInstance).map (· * t.delta⁻¹)) i =
      combinedAt t q (s.numInstance + i) * t.delta⁻¹ := by
    refine listAt_of_getElem? ?_
    rw [List.getElem?_map, List.getElem?_drop, getElem?_combined hu hv hw (by omega),
      Option.map_some]
  have hwire : listAt (z.toList.drop s.numInstance) i = vectorAt z (s.numInstance + i) := by
    rw [listAt, List.getD_eq_getElem?_getD, List.getElem?_drop, ← List.getD_eq_getElem?_getD,
      ← listAt, listAt_toList]
  rw [hpoint, hwire]
  ring

omit right in
/-- The sum over the coefficients of the quotient. -/
theorem msm_quotientPoints (keys : Generated s t d q pk) (workers : Nat)
    (size : h.size = Qap.quotientLength d.size) :
    msm workers pk.quotientPoints h.toList =
      ((∑ j ∈ range h.size, vectorAt h j * t.tau ^ j) * q.vanishing * t.delta⁻¹) •
        (ScalarGroup.generator : G₁) := by
  rw [keys.keys]
  change msm workers (fixedBase _ (powers (q.vanishing * t.delta⁻¹) t.tau _)) _ = _
  rw [msm_fixedBase, length_powers, ← size, sum_mul, sum_mul]
  congr 1
  refine sum_congr rfl fun j hj => ?_
  rw [listAt_of_getElem? (getElem?_powers _ _ (mem_range.1 hj)), listAt_toList]
  ring

/-- **A proof consists of known multiples of the generators.** -/
theorem proofOf_eq [Workers] (keys : Generated s t d q pk)
    (size : h.size = Qap.quotientLength d.size) (x y : Fp K) :
    proofOf pk s.numInstance z.toList h.toList x y =
      ⟨scalarA t q (vectorAt z) x • ScalarGroup.generator,
        scalarB t q (vectorAt z) y • ScalarGroup.generator,
        scalarC t q (vectorAt z) s.numInstance h x y • ScalarGroup.generator⟩ := by
  have hpoints : ∀ {G : Type} [ScalarGroup K G] [LawfulScalarGroup K G] (u : Array (Fp K)),
      msm Workers.proving (fixedBase (ScalarGroup.generator : G) u.toList) z.toList =
        (∑ i ∈ range u.size, vectorAt u i * vectorAt z i) • (ScalarGroup.generator : G) := by
    intro G _ _ u
    rw [msm_fixedBase, Array.length_toList]
    simp only [listAt_toList]
  have ha : pk.vk.alpha + msm Workers.proving pk.aPoints z.toList + x • pk.delta =
      scalarA t q (vectorAt z) x • (ScalarGroup.generator : G₁) := by
    rw [keys.keys]
    change t.alpha • _ + msm _ (fixedBase _ _) _ + x • t.delta • _ = _
    rw [hpoints, scalarA, add_smul, add_smul, mul_smul]
  have hb : ∀ {G : Type} [ScalarGroup K G] [LawfulScalarGroup K G],
      t.beta • (ScalarGroup.generator : G) +
        msm Workers.proving (fixedBase ScalarGroup.generator q.v.toList) z.toList +
        y • t.delta • ScalarGroup.generator =
      scalarB t q (vectorAt z) y • (ScalarGroup.generator : G) := by
    intro G _ _
    rw [hpoints, scalarB, add_smul, add_smul, mul_smul]
  have hb₁ : pk.beta + msm Workers.proving pk.bPoints z.toList + y • pk.delta =
      scalarB t q (vectorAt z) y • (ScalarGroup.generator : G₁) := by
    rw [keys.keys]
    exact hb
  have hb₂ : pk.vk.beta + msm Workers.proving pk.bPoints₂ z.toList + y • pk.vk.delta =
      scalarB t q (vectorAt z) y • (ScalarGroup.generator : G₂) := by
    rw [keys.keys]
    exact hb
  have hdelta : pk.delta = t.delta • (ScalarGroup.generator : G₁) := by
    rw [keys.keys]
    rfl
  rw [proofOf, ha, hb₁, hb₂, msm_privatePoints keys, msm_quotientPoints keys Workers.proving size,
    hdelta, scalarC]
  congr 1
  module

end

/-! ## Checks -/

section
variable [prime : Fact K.modulus.Prime] {s : R1CS K} {t : ToxicWaste K} {d : Domain K}
  {q : Qap.Evaluations K} {pk : ProvingKey G₁ G₂} {w : Witness K} {session : Nat}
  {known : List Wire} {ops : List (Operation K)}

/-- A generated key and a witness fit the system. -/
theorem fits_of_generated (keys : Generated s t d q pk) (inside : s.numInstance ≤ s.numWires)
    (witness : s.IsWitness w) : pk.Fits s w d := by
  obtain ⟨-, -, hu, hv, hw, -, -, -, -⟩ := id keys.evaluated
  obtain ⟨k, hk, hsize⟩ := keys.valid.twoPower
  have hcombined := length_combined (t := t) hu hv hw
  have hdomain : (UInt64.ofNat d.size).toNat = d.size := by
    refine UInt64.toNat_ofNat_of_lt' ?_
    rw [hsize]
    exact Nat.pow_lt_pow_right Nat.one_lt_two hk
  have hinstance : min s.numInstance s.numWires = s.numInstance := min_eq_left inside
  rw [keys.keys]
  refine ⟨rfl, witness.digest, witness.size, keys.domain, hdomain, ?_, ?_, ?_, inside, ?_, ?_, ?_⟩
  all_goals simp only [keysOf, fixedBase, List.length_map, List.length_take, List.length_drop,
    length_powers, Array.length_toList, hu, hv, hcombined, hinstance]

/-- **For a witness of the system, all checks pass and the quotient is found.** -/
theorem prepareProof_ok (keys : Generated s t d q pk) (recorded : s.Recorded session known ops)
    (witness : s.IsWitness w) : ∃ h, prepareProof s pk w = .ok h ∧
      Qap.Divides s.toConstraintSystem d (vectorAt w.values) h := by
  have inside := recorded.numInstance_le
  obtain ⟨h, hh, divides⟩ := Qap.quotient_ok keys.valid keys.evaluated.numRows_le
    (witness.below recorded) (by rwa [witness.size]) (witness.satisfies recorded)
  have hfits : pk.fits s w = .ok d := by
    rw [ProvingKey.fits_eq_ok_iff, witness.modulus, recorded.modulus, Modulus.ensure_descriptor]
    exact ⟨rfl, rfl, fits_of_generated keys inside witness⟩
  refine ⟨h, ?_, divides⟩
  rw [prepareProof, hfits, witness.check]
  change Outcome.mapError ProvingError.domain (Qap.quotient s.toConstraintSystem d w.values) = _
  rw [hh]
  rfl

end

/-! ## Runs -/

/-- The source answers twice, with blocks that stand for the two scalars. -/
def DrawsScalars {σ : Type} [RandomSource σ] (x y : Fp K) (state state' : σ) : Prop :=
  ∃ b₁ b₂ between, RandomSource.next state = (.ok b₁, between) ∧
    RandomSource.next between = (.ok b₂, state') ∧ Fp.ofBlock K b₁ = x ∧ Fp.ofBlock K b₂ = y

/-- **A run of the prover** on a source that answers twice gives the proof with the two scalars. -/
theorem runOn_prove [Workers] {σ : Type} [RandomSource σ] {s : R1CS K} {pk : ProvingKey G₁ G₂}
    {w : Witness K} {x y : Fp K} {state state' : σ} {h : Array (Fp K)}
    (prepared : prepareProof s pk w = .ok h) (draws : DrawsScalars x y state state') :
    (prove s pk w).runOn state =
      (.ok (proofOf pk s.numInstance w.values.toList h.toList x y), state') := by
  obtain ⟨b₁, b₂, between, hfirst, hsecond, rfl, rfl⟩ := draws
  rw [prove, prepared]
  dsimp only
  rw [Draws.runOn_bind_of_ok (Draws.runOn_sample hfirst),
    Draws.runOn_bind_of_ok (Draws.runOn_sample hsecond)]
  rfl

end Groth16
