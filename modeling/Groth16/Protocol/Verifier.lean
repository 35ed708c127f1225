import Groth16.Circuit.Witness
import Groth16.Curve.Multiples
import Groth16.Protocol.Keys

/-!
# Verifying

A proof is accepted if `e(A, B) = e(α, β) · e(Σ xᵢ ICᵢ, γ) · e(C, δ)`. The two last factors are
brought to the left, so that one product of three pairings is compared with `e(α, β)`.

* `VerifyingKey.prepare`: the parts of the check that do not depend on the proof.
* `verifyWithInputs`: the check for inputs in wire order.
* `verifyPrepared`, `verify`: the check for a public witness of the same system.
-/

set_option autoImplicit false

namespace Groth16

/-- Why a proof can be neither accepted nor refused. -/
inductive VerificationError where
  /-- The key is for another number of inputs. -/
  | inputLength (expected got : Nat)
  /-- The inputs are those of another system than the key's. -/
  | keyMismatch
  /-- The inputs are over another field. -/
  | field (cause : ModulusMismatch)
  /-- A point of the proof is at infinity. -/
  | malformedProof
  deriving DecidableEq

/-- The text of the error. -/
def VerificationError.message : VerificationError → String
  | .inputLength expected got => s!"expected {expected} public inputs, got {got}"
  | .keyMismatch =>
    "public witness was produced for a different circuit than the verifying key"
  | .field cause => cause.message
  | .malformedProof => "malformed proof: point at infinity"

variable {K : PrimeField} {G₁ G₂ T : Type} [ScalarGroup K G₁] [ScalarGroup K G₂] [Pairing K G₁ G₂ T]

/-- Computes `e(α, β)`, `-γ` and `-δ`. -/
def VerifyingKey.prepare (vk : VerifyingKey G₁ G₂) : PreparedKey G₁ G₂ T :=
  ⟨vk, pairing vk.alpha vk.beta, -vk.gamma, -vk.delta⟩

/-- The sum of the instance points for the one-wire and the inputs. -/
def instanceSum [Workers] (first : G₁) (rest : List G₁) (inputs : List (Fp K)) : G₁ :=
  first + msm Workers.verifying rest inputs

/-- The pairing check of a proof whose points are finite. -/
def PreparedKey.accepts (pvk : PreparedKey G₁ G₂ T) (proof : Proof G₁ G₂) (known : G₁) : Bool :=
  let product : T :=
    Pairing.pairingProduct [(proof.a, proof.b), (known, pvk.negGamma), (proof.c, pvk.negDelta)]
  (Pairing.decEq (K := K) G₁ G₂ product pvk.alphaBeta).decide

/-- Verifies a proof for inputs in wire order. The digest of the key is not looked at. -/
def verifyWithInputs [Workers] (pvk : PreparedKey G₁ G₂ T) (proof : Proof G₁ G₂)
    (inputs : List (Fp K)) : Except VerificationError Bool :=
  let lengthError := .error (.inputLength pvk.vk.numPublic inputs.length)
  match pvk.vk.instancePoints with
  | [] => lengthError
  | first :: rest =>
    if inputs.length ≠ rest.length then lengthError
    else if proof.a = 0 ∨ proof.b = 0 ∨ proof.c = 0 then .error .malformedProof
    else .ok (pvk.accepts proof (instanceSum first rest inputs))

/-- The public witness is one of the system that the key was generated for. -/
def VerifyingKey.checkWitness (vk : VerifyingKey G₁ G₂) (w : PublicWitness K) :
    Except VerificationError Unit := do
  (w.modulus.ensure K).mapError .field
  if w.digest ≠ vk.digest then throw .keyMismatch

/-- Verifies a proof for a public witness, with a prepared key. -/
def verifyPrepared [Workers] (pvk : PreparedKey G₁ G₂ T) (proof : Proof G₁ G₂)
    (w : PublicWitness K) : Except VerificationError Bool := do
  pvk.vk.checkWitness w
  verifyWithInputs pvk proof w.values

/-- Verifies a proof for a public witness. -/
def verify [Workers] (proof : Proof G₁ G₂) (vk : VerifyingKey G₁ G₂) (w : PublicWitness K) :
    Except VerificationError Bool := do
  vk.checkWitness w
  verifyWithInputs vk.prepare proof w.values

end Groth16
