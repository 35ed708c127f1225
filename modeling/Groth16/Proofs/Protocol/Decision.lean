import Groth16.Proofs.Curve.Orders
import Groth16.Proofs.Protocol.Verifier

/-!
# Verifying decides an equation of pairings

The verifier does not compute the equation of a proof as it is written down.  Two pairings are
brought to the other side, with negated points that are prepared once, and one product of three
pairings is compared with a prepared one.  For every key, whether or not it comes from a setup, and
whatever points it holds, this decides the plain equation; and the two errors come before it, in
this order.

* `VerifyingKey.Equation`: the equation as it is written down.
* `VerifyingKey.accepts_iff_equation`: the product of three pairings decides it.
* `verification_decides_equation`: what the verifier answers, for raw inputs and by name.
-/

set_option autoImplicit false

namespace Groth16

variable {K : PrimeField} {G₁ G₂ T : Type} [ScalarGroup K G₁] [ScalarGroup K G₂]
  [Pairing K G₁ G₂ T]

/-! ## The equation -/

namespace VerifyingKey

/-- The point that the inputs come to: the first instance point, and the multiples of the others by
the inputs. -/
def inputPoint (vk : VerifyingKey G₁ G₂) (inputs : List (Fp K)) : G₁ :=
  vk.instancePoints.getD 0 0 +
    ((List.range inputs.length).map fun i =>
      listAt inputs i • vk.instancePoints.getD (i + 1) 0).sum

/-- `e(A, B) = e(α, β) · e(Σ xᵢ ICᵢ, γ) · e(C, δ)`. -/
def Equation [CommGroup T] (vk : VerifyingKey G₁ G₂) (proof : Proof G₁ G₂)
    (inputs : List (Fp K)) : Prop :=
  (pairing proof.a proof.b : T) =
    pairing vk.alpha vk.beta * pairing (vk.inputPoint inputs) vk.gamma * pairing proof.c vk.delta

instance [CommGroup T] [DecidableEq T] (vk : VerifyingKey G₁ G₂) (proof : Proof G₁ G₂)
    (inputs : List (Fp K)) : Decidable (vk.Equation proof inputs) :=
  inferInstanceAs (Decidable (_ = _))

omit [ScalarGroup K G₂] in
theorem instanceSum_eq_inputPoint [Workers] [LawfulSums K G₁] {vk : VerifyingKey G₁ G₂} {first : G₁}
    {rest : List G₁} {inputs : List (Fp K)} (points : vk.instancePoints = first :: rest)
    (length : inputs.length = rest.length) :
    instanceSum first rest inputs = vk.inputPoint inputs := by
  rw [instanceSum, msm_eq_sum_positions, inputPoint, points, length, min_self]
  rfl

/-- **The product of three pairings decides the plain equation.** -/
theorem accepts_iff_equation [CommGroup T] [LawfulScalarGroup K G₂]
    [lawful : LawfulPairing K G₁ G₂ T] (vk : VerifyingKey G₁ G₂) (proof : Proof G₁ G₂)
    (inputs : List (Fp K)) :
    (vk.prepare : PreparedKey G₁ G₂ T).accepts proof (vk.inputPoint inputs) = true ↔
      vk.Equation proof inputs := by
  have hproduct : Pairing.pairingProduct [(proof.a, proof.b), (vk.inputPoint inputs, -vk.gamma),
      (proof.c, -vk.delta)] =
      pairing proof.a proof.b * ((pairing (vk.inputPoint inputs) vk.gamma)⁻¹ *
        (pairing proof.c vk.delta)⁻¹) := by
    rw [lawful.pairingProduct_eq, List.map_cons, List.map_cons, List.map_cons, List.map_nil,
      List.prod_cons, List.prod_cons, List.prod_cons, List.prod_nil, mul_one, pairing_neg_right,
      pairing_neg_right]
  rw [PreparedKey.accepts_eq_true, Equation]
  change Pairing.pairingProduct [(proof.a, proof.b), (vk.inputPoint inputs, -vk.gamma),
    (proof.c, -vk.delta)] = pairing vk.alpha vk.beta ↔ _
  rw [hproduct, ← mul_inv, mul_inv_eq_iff_eq_mul, mul_assoc]

end VerifyingKey

/-- **Verifying decides the equation of pairings.**  Let a key hold any points, and take any proof.
For all inputs there is an error for their number exactly if the key has no instance points, or not
one for each input and one more; otherwise the proof is malformed exactly if one of its points is at
infinity; and otherwise there is an answer, which says whether the equation holds.  By name, with a
public witness of the field and the digest of the key, both ways to verify give this answer. -/
theorem verification_decides_equation [Workers] [CommGroup T] [LawfulSums K G₁]
    [LawfulScalarGroup K G₂] [LawfulPairing K G₁ G₂ T] (vk : VerifyingKey G₁ G₂)
    (proof : Proof G₁ G₂) :
    (∀ inputs : List (Fp K),
      (verifyWithInputs (vk.prepare : PreparedKey G₁ G₂ T) proof inputs =
          .error (.inputLength vk.numPublic inputs.length) ↔ vk.Mismatched inputs) ∧
      (verifyWithInputs (vk.prepare : PreparedKey G₁ G₂ T) proof inputs = .error .malformedProof ↔
        ¬ vk.Mismatched inputs ∧ proof.Malformed) ∧
      (∀ accepted, verifyWithInputs (vk.prepare : PreparedKey G₁ G₂ T) proof inputs =
          .ok accepted ↔
        ¬ vk.Mismatched inputs ∧ ¬ proof.Malformed ∧
          (accepted = true ↔ vk.Equation proof inputs))) ∧
    ∀ w : PublicWitness K, w.modulus = K.descriptor → w.digest = vk.digest →
      verify proof vk w = verifyWithInputs vk.prepare proof w.values ∧
      verifyPrepared vk.prepare proof w = verifyWithInputs vk.prepare proof w.values := by
  refine ⟨fun inputs => ?_, fun w modulus digest => ?_⟩
  · have hkey : (vk.prepare : PreparedKey G₁ G₂ T).vk = vk := rfl
    rcases verifyWithInputs_cases (vk.prepare : PreparedKey G₁ G₂ T) proof inputs with
      ⟨mismatched, hrun⟩ | ⟨matched, malformed, hrun⟩ |
      ⟨first, rest, hpoints, hlength, matched, finite, hrun⟩
    · rw [hrun, hkey]
      exact ⟨⟨fun _ => mismatched, fun _ => rfl⟩, ⟨nofun, fun h => absurd mismatched h.1⟩,
        fun accepted => ⟨nofun, fun h => absurd mismatched h.1⟩⟩
    · rw [hrun]
      exact ⟨⟨nofun, fun h => absurd h matched⟩, ⟨fun _ => ⟨matched, malformed⟩, fun _ => rfl⟩,
        fun accepted => ⟨nofun, fun h => absurd malformed h.2.1⟩⟩
    · rw [hkey] at hpoints matched
      rw [hrun, VerifyingKey.instanceSum_eq_inputPoint hpoints hlength]
      refine ⟨⟨nofun, fun h => absurd h matched⟩, ⟨nofun, fun h => absurd h.2 finite⟩,
        fun accepted => ?_⟩
      rw [Except.ok.injEq, eq_comm, Bool.eq_iff_iff, vk.accepts_iff_equation]
      exact ⟨fun h => ⟨matched, finite, h⟩, fun h => h.2.2⟩
  · have hcheck := vk.checkWitness_of_matches modulus digest
    exact ⟨verify_of_checkWitness hcheck, verifyPrepared_of_checkWitness hcheck⟩

namespace Decision

/-- A key for one input, of which one point is at infinity. -/
def key : VerifyingKey (Logarithm bn254Scalar) (Logarithm bn254Scalar) where
  alpha := ⟨.ofNat bn254Scalar 2⟩
  beta := ⟨.ofNat bn254Scalar 3⟩
  gamma := 0
  delta := ⟨.ofNat bn254Scalar 6⟩
  instancePoints := [⟨.ofNat bn254Scalar 5⟩, ⟨.ofNat bn254Scalar 9⟩]
  digest := .of []

/-- A public witness for the key. -/
def publics : PublicWitness bn254Scalar where
  values := [.ofNat bn254Scalar 7]
  digest := .of []
  modulus := bn254Scalar.descriptor

/-- A proof with `3 · 4 = 2 · 3 + c · 6` for `c = 1`. -/
def proof (c : Nat) : Proof (Logarithm bn254Scalar) (Logarithm bn254Scalar) where
  a := ⟨.ofNat bn254Scalar 3⟩
  b := ⟨.ofNat bn254Scalar 4⟩
  c := ⟨.ofNat bn254Scalar c⟩

end Decision

/-- The proof is accepted, by name as well.  It is refused with another third point, malformed
without one, and there is no answer without the input. -/
theorem verification_decides_equation_sample :
    verify (Decision.proof 1) Decision.key Decision.publics = .ok true ∧
      verifyPrepared Decision.key.prepare (Decision.proof 2) Decision.publics = .ok false ∧
      verifyWithInputs Decision.key.prepare (Decision.proof 0) Decision.publics.values =
        .error .malformedProof ∧
      verifyWithInputs Decision.key.prepare (Decision.proof 0) ([] : List (Fp bn254Scalar)) =
        .error (.inputLength 1 0) := by
  obtain ⟨haccepted, hverify⟩ :=
    verification_decides_equation (K := bn254Scalar) Decision.key (Decision.proof 1)
  obtain ⟨hrefused, hprepared⟩ :=
    verification_decides_equation (K := bn254Scalar) Decision.key (Decision.proof 2)
  obtain ⟨hmalformed, -⟩ :=
    verification_decides_equation (K := bn254Scalar) Decision.key (Decision.proof 0)
  refine ⟨?_, ?_, (hmalformed _).2.1.2 (by decide +kernel), (hmalformed []).1.2 (by decide +kernel)⟩
  · rw [(hverify Decision.publics rfl rfl).1]
    exact ((haccepted _).2.2 true).2 (by decide +kernel)
  · rw [(hprepared Decision.publics rfl rfl).2]
    exact ((hrefused _).2.2 false).2 (by decide +kernel)

end Groth16
