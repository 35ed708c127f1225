import Mathlib.Tactic.LinearCombination
import Groth16.Proofs.Protocol.Prover
import Groth16.Protocol.Verifier

/-!
# What the verifier decides

For a generated key and points that are known multiples of the generators, the pairing check is an
equation between the scalars.  For any key, the answer is that of the pairing check, unless the key
or the proof has none.

* `Generated.accepts_iff`: the equation that the check decides.
* `Generated.exists_instancePoints`: the points that the public inputs are multiplied with, and
  what their sum comes to.
* `VerifyingKey.Mismatched`, `Proof.Malformed`: when there is no answer.
* `verifyWithInputs_cases`: how verifying ends.
-/

set_option autoImplicit false

namespace Groth16

open Finset ScalarGroup

variable {K : PrimeField} {G₁ G₂ T : Type} [ScalarGroup K G₁] [ScalarGroup K G₂]
  [Pairing K G₁ G₂ T]

/-- The check compares a product of pairings with a prepared one. -/
theorem PreparedKey.accepts_eq_true {pvk : PreparedKey G₁ G₂ T} {proof : Proof G₁ G₂} {known : G₁} :
    pvk.accepts proof known = true ↔
      Pairing.pairingProduct [(proof.a, proof.b), (known, pvk.negGamma), (proof.c, pvk.negDelta)] =
        pvk.alphaBeta := by
  rw [accepts]
  exact @decide_eq_true_iff _ (Pairing.decEq G₁ G₂ _ _)

section
variable [prime : Fact K.modulus.Prime] {s : R1CS K} {t : ToxicWaste K} {d : Domain K}
  {q : Qap.Evaluations K} {pk : ProvingKey G₁ G₂}

/-- **The check decides an equation of scalars.** -/
theorem Generated.accepts_iff [CommGroup T] [LawfulScalarGroup K G₁] [LawfulScalarGroup K G₂]
    [lawful : LawfulPairing K G₁ G₂ T] (keys : Generated s t d q pk) (a b c i : Fp K) :
    (pk.vk.prepare : PreparedKey G₁ G₂ T).accepts
        ⟨a • generator, b • generator, c • generator⟩ (i • generator) = true ↔
      a * b = t.alpha * t.beta + i * t.gamma + c * t.delta := by
  have hneg : ∀ x y : Fp K, pairing (x • (generator : G₁)) (-(y • (generator : G₂))) =
      pairing ((-(x * y)) • (generator : G₁)) (generator : G₂) := by
    intro x y
    rw [← neg_smul, pairing_smul_smul, mul_neg]
  have hproduct : Pairing.pairingProduct [((a • generator : G₁), (b • generator : G₂)),
      (i • generator, -(t.gamma • generator)), (c • generator, -(t.delta • generator))] =
      pairing ((a * b + -(i * t.gamma) + -(c * t.delta)) • (generator : G₁)) (generator : G₂) := by
    rw [lawful.pairingProduct_eq, List.map_cons, List.map_cons, List.map_cons, List.map_nil,
      List.prod_cons, List.prod_cons, List.prod_cons, List.prod_nil, mul_one, hneg, hneg,
      pairing_smul_smul, ← lawful.add_left, ← lawful.add_left, ← add_smul, ← add_smul, add_assoc]
  have hfixed : pairing (t.alpha • (generator : G₁)) (t.beta • (generator : G₂)) =
      pairing ((t.alpha * t.beta) • (generator : G₁)) (generator : G₂) := pairing_smul_smul ..
  rw [PreparedKey.accepts_eq_true, keys.keys]
  change Pairing.pairingProduct [((a • generator : G₁), (b • generator : G₂)),
    (i • generator, -(t.gamma • generator)), (c • generator, -(t.delta • generator))] =
    pairing (t.alpha • (generator : G₁)) (t.beta • (generator : G₂)) ↔ _
  rw [hproduct, hfixed, pairing_smul_generator_inj]
  constructor
  · intro h
    linear_combination h
  · intro h
    linear_combination h

omit [ScalarGroup K G₂] [Pairing K G₁ G₂ T] in
/-- The points of the instance wires are multiples of the generator by what the columns come to
there. -/
theorem Generated.exists_instanceScalars [ScalarGroup K G₂] (keys : Generated s t d q pk)
    (inside : s.numInstance ≤ s.numWires) :
    ∃ x xs, pk.vk.instancePoints = fixedBase generator (x :: xs) ∧ xs.length = s.numPublic ∧
      ∀ i < s.numInstance, listAt (x :: xs) i = combinedAt t q i * t.gamma⁻¹ := by
  obtain ⟨-, -, hu, hv, hw, -, -, -, -⟩ := id keys.evaluated
  have hlength : (((combined t q).take s.numInstance).map (· * t.gamma⁻¹)).length =
      s.numPublic + 1 := by
    rw [List.length_map, List.length_take, length_combined hu hv hw]
    exact min_eq_left inside
  have hentry : ∀ i < s.numInstance,
      listAt (((combined t q).take s.numInstance).map (· * t.gamma⁻¹)) i =
        combinedAt t q i * t.gamma⁻¹ := by
    intro i hi
    refine listAt_of_getElem? ?_
    rw [List.getElem?_map, List.getElem?_take_of_lt hi,
      getElem?_combined hu hv hw (Nat.lt_of_lt_of_le hi inside), Option.map_some]
  have hpoints : pk.vk.instancePoints =
      fixedBase generator (((combined t q).take s.numInstance).map (· * t.gamma⁻¹)) := by
    rw [keys.keys]
    rfl
  obtain ⟨x, xs, hxs⟩ := List.exists_cons_of_length_eq_add_one hlength
  rw [hxs] at hlength hentry hpoints
  exact ⟨x, xs, hpoints, Nat.succ.inj hlength, hentry⟩

omit [ScalarGroup K G₂] [Pairing K G₁ G₂ T] in
/-- The points of the instance wires, and what their sum with the public inputs comes to. -/
theorem Generated.exists_instancePoints [Workers] [ScalarGroup K G₂] [LawfulScalarGroup K G₁]
    (keys : Generated s t d q pk) (inside : s.numInstance ≤ s.numWires) :
    ∃ first rest, pk.vk.instancePoints = first :: rest ∧ rest.length = s.numPublic ∧
      ∀ (z : Nat → Fp K) (inputs : List (Fp K)), z 0 = 1 →
        (∀ i < s.numPublic, listAt inputs i = z (i + 1)) →
        instanceSum first rest inputs =
          (instanceScalar t q z s.numInstance * t.gamma⁻¹) • (generator : G₁) := by
  obtain ⟨x, xs, hpoints, hlength, hentry⟩ := keys.exists_instanceScalars inside
  refine ⟨x • generator, fixedBase generator xs, hpoints, (List.length_map _).trans hlength,
    fun z inputs one hinputs => ?_⟩
  have hterm : ∀ i ∈ range s.numPublic, listAt xs i * listAt inputs i =
      combinedAt t q (i + 1) * z (i + 1) * t.gamma⁻¹ := by
    intro i hi
    have hi := mem_range.1 hi
    have := hentry (i + 1) (Nat.succ_lt_succ hi)
    rw [listAt_cons_succ] at this
    rw [this, hinputs i hi]
    ring
  have hfirst : x = combinedAt t q 0 * z 0 * t.gamma⁻¹ := by
    rw [one, mul_one]
    exact hentry 0 (Nat.succ_pos _)
  have hsum : instanceScalar t q z s.numInstance * t.gamma⁻¹ =
      x + ∑ i ∈ range s.numPublic, listAt xs i * listAt inputs i := by
    rw [sum_congr rfl hterm, hfirst, ← sum_mul, ← add_mul, instanceScalar,
      ConstraintSystem.numInstance, sum_range_succ', add_comm]
  rw [instanceSum, msm_fixedBase, hlength, hsum, add_smul]

end

/-! ## Answers -/

/-- The key has no point for the one-wire, or is for another number of inputs. -/
def VerifyingKey.Mismatched (vk : VerifyingKey G₁ G₂) (inputs : List (Fp K)) : Prop :=
  vk.instancePoints = [] ∨ inputs.length + 1 ≠ vk.instancePoints.length

instance (vk : VerifyingKey G₁ G₂) (inputs : List (Fp K)) : Decidable (vk.Mismatched inputs) :=
  inferInstanceAs (Decidable (_ ∨ _))

/-- A point of the proof is at infinity. -/
def Proof.Malformed (proof : Proof G₁ G₂) : Prop := proof.a = 0 ∨ proof.b = 0 ∨ proof.c = 0

instance (proof : Proof G₁ G₂) : Decidable proof.Malformed := inferInstanceAs (Decidable (_ ∨ _))

section
variable {pvk : PreparedKey G₁ G₂ T} {proof : Proof G₁ G₂} {inputs : List (Fp K)}

omit [ScalarGroup K G₁] [ScalarGroup K G₂] in
theorem VerifyingKey.exists_of_not_mismatched {vk : VerifyingKey G₁ G₂}
    (h : ¬ vk.Mismatched inputs) :
    ∃ first rest, vk.instancePoints = first :: rest ∧ inputs.length = rest.length := by
  rw [Mismatched, not_or, not_not] at h
  obtain ⟨first, rest, hpoints⟩ := List.exists_cons_of_ne_nil h.1
  refine ⟨first, rest, hpoints, ?_⟩
  rw [hpoints, List.length_cons] at h
  exact Nat.succ.inj h.2

/-- The number of inputs is looked at first. -/
theorem verifyWithInputs_of_mismatched [Workers] (h : pvk.vk.Mismatched inputs) :
    verifyWithInputs pvk proof inputs =
      .error (.inputLength pvk.vk.numPublic inputs.length) := by
  rw [VerifyingKey.Mismatched] at h
  rw [verifyWithInputs]
  split
  · rfl
  · next first rest hpoints =>
    have hlength : inputs.length ≠ rest.length := by simpa [hpoints] using h
    rw [if_pos hlength]

/-- The points of the proof are looked at next. -/
theorem verifyWithInputs_of_malformed [Workers] {first : G₁} {rest : List G₁}
    (points : pvk.vk.instancePoints = first :: rest) (length : inputs.length = rest.length)
    (malformed : proof.Malformed) :
    verifyWithInputs pvk proof inputs = .error .malformedProof := by
  rw [Proof.Malformed] at malformed
  rw [verifyWithInputs, points]
  dsimp only
  rw [if_neg (not_not.2 length), if_pos malformed]

/-- Otherwise the pairing check gives the answer. -/
theorem verifyWithInputs_of_wellFormed [Workers] {first : G₁} {rest : List G₁}
    (points : pvk.vk.instancePoints = first :: rest) (length : inputs.length = rest.length)
    (wellFormed : ¬ proof.Malformed) :
    verifyWithInputs pvk proof inputs =
      .ok (pvk.accepts proof (instanceSum first rest inputs)) := by
  rw [Proof.Malformed] at wellFormed
  rw [verifyWithInputs, points]
  dsimp only
  rw [if_neg (not_not.2 length), if_neg wellFormed]

/-- **How verifying ends**: with an error for the number of inputs, with one for a point at infinity,
or with what the pairing check says. -/
theorem verifyWithInputs_cases [Workers] (pvk : PreparedKey G₁ G₂ T) (proof : Proof G₁ G₂)
    (inputs : List (Fp K)) :
    (pvk.vk.Mismatched inputs ∧ verifyWithInputs pvk proof inputs =
        .error (.inputLength pvk.vk.numPublic inputs.length)) ∨
      (¬ pvk.vk.Mismatched inputs ∧ proof.Malformed ∧
        verifyWithInputs pvk proof inputs = .error .malformedProof) ∨
      ∃ first rest, pvk.vk.instancePoints = first :: rest ∧ inputs.length = rest.length ∧
        ¬ pvk.vk.Mismatched inputs ∧ ¬ proof.Malformed ∧ verifyWithInputs pvk proof inputs =
          .ok (pvk.accepts proof (instanceSum first rest inputs)) := by
  by_cases mismatched : pvk.vk.Mismatched inputs
  · exact .inl ⟨mismatched, verifyWithInputs_of_mismatched mismatched⟩
  obtain ⟨first, rest, hpoints, hlength⟩ := VerifyingKey.exists_of_not_mismatched mismatched
  by_cases malformed : proof.Malformed
  · exact .inr (.inl ⟨mismatched, malformed,
      verifyWithInputs_of_malformed hpoints hlength malformed⟩)
  · exact .inr (.inr ⟨first, rest, hpoints, hlength, mismatched, malformed,
      verifyWithInputs_of_wellFormed hpoints hlength malformed⟩)

end

/-! ## Steps of the verifier -/

omit [ScalarGroup K G₁] [ScalarGroup K G₂] in
/-- A public witness with the field and the digest of the key passes. -/
theorem VerifyingKey.checkWitness_of_matches {vk : VerifyingKey G₁ G₂} {w : PublicWitness K}
    (modulus : w.modulus = K.descriptor) (digest : w.digest = vk.digest) :
    vk.checkWitness w = .ok () := by
  rw [VerifyingKey.checkWitness, digest, modulus, Modulus.ensure_descriptor]
  change (if vk.digest ≠ vk.digest then _ else _) = _
  rw [if_neg (not_not.2 rfl)]
  rfl

theorem verifyPrepared_of_checkWitness [Workers] {pvk : PreparedKey G₁ G₂ T} {proof : Proof G₁ G₂}
    {w : PublicWitness K} (h : pvk.vk.checkWitness w = .ok ()) :
    verifyPrepared pvk proof w = verifyWithInputs pvk proof w.values := by
  rw [verifyPrepared, h]
  rfl

theorem verify_of_checkWitness [Workers] {vk : VerifyingKey G₁ G₂} {proof : Proof G₁ G₂}
    {w : PublicWitness K} (h : vk.checkWitness w = .ok ()) :
    verify proof vk w = verifyWithInputs vk.prepare proof w.values := by
  rw [verify, h]
  rfl

end Groth16
