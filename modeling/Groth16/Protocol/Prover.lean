import Groth16.Circuit.Witness
import Groth16.Curve.Multiples
import Groth16.Field.Sample
import Groth16.Protocol.Keys
import Groth16.Qap

/-!
# Proving

For a vector of wires `z` that satisfies the system and two blinding scalars `r`, `s` a proof is

* `A = α + Σ zᵢ uᵢ(τ) + r δ`,
* `B = β + Σ zᵢ vᵢ(τ) + s δ`, in the second group, and also in the first for `C`,
* `C = Σ zᵢ lᵢ + Σ hⱼ τʲ (τ^N - 1) / δ + s A + r B - r s δ`, the first sum over the wires that are
  not instance wires,

where `h` is the quotient of the system on `z`. Everything that can be checked is checked before
the scalars are drawn.

* `ProvingKey.fits`: the key has the shape that the system asks for.
* `prove`: the proof.
-/

set_option autoImplicit false

namespace Groth16

/-- A part of a proving key that has a prescribed size. -/
inductive KeyPart where
  /-- The domain. -/
  | domain
  /-- The points of the first factors. -/
  | aPoints
  /-- The points of the second factors in the first group. -/
  | bPoints
  /-- The points of the second factors in the second group. -/
  | bPoints₂
  /-- The points of the private wires. -/
  | privatePoints
  /-- The points of the instance wires. -/
  | instancePoints
  /-- The points of the quotient. -/
  | quotientPoints
  deriving DecidableEq

/-- The name of the part. -/
def KeyPart.name : KeyPart → String
  | .domain => "domain"
  | .aPoints => "a_query"
  | .bPoints => "b_g1_query"
  | .bPoints₂ => "b_g2_query"
  | .privatePoints => "l_query"
  | .instancePoints => "gamma_abc_g1"
  | .quotientPoints => "h_query"

/-- Why there is no proof. -/
inductive ProvingError where
  /-- The key was generated for another system. -/
  | keyMismatch
  /-- The witness was assigned for another system. -/
  | witnessMismatch
  /-- The witness has another number of wires. -/
  | witnessSize (expected got : Nat)
  /-- A part of the key has another size than the system asks for. -/
  | malformedKey (part : KeyPart) (got expected : Nat)
  /-- The witness violates a constraint. -/
  | unsatisfied (cause : Unsatisfied)
  /-- The source of randomness failed. -/
  | randomness (cause : SourceFailure)
  /-- The system has no domain. -/
  | domain (cause : DomainError)
  /-- The system or the witness is over another field. -/
  | field (cause : ModulusMismatch)
  deriving DecidableEq

/-- The text of the error. -/
def ProvingError.message : ProvingError → String
  | .keyMismatch => "proving key was generated for a different circuit"
  | .witnessMismatch => "witness was assigned for a different circuit"
  | .witnessSize expected got => s!"witness has {got} wires, circuit has {expected}"
  | .malformedKey part got expected =>
    s!"malformed proving key: {part.name} has {got} entries, expected {expected}"
  | .unsatisfied cause => s!"unsatisfiable witness: {cause.message}"
  | .randomness cause => s!"randomness source failed: {cause.message}"
  | .domain cause => cause.message
  | .field cause => cause.message

variable {K : PrimeField} {G₁ G₂ : Type}

/-- The sizes of the parts of a key and the sizes that a system asks for, in the order in which
they are compared. -/
def ProvingKey.sizes (pk : ProvingKey G₁ G₂) (s : ConstraintSystem K) (d : Domain K) :
    List (KeyPart × Nat × Option Nat) :=
  [(.domain, pk.domainSize.toNat, some d.size),
    (.aPoints, pk.aPoints.length, some s.numWires),
    (.bPoints, pk.bPoints.length, some s.numWires),
    (.bPoints₂, pk.bPoints₂.length, some s.numWires),
    (.privatePoints, pk.privatePoints.length, s.numPrivate?),
    (.instancePoints, pk.vk.instancePoints.length, some s.numInstance),
    (.quotientPoints, pk.quotientPoints.length, some (Qap.quotientLength d.size))]

/-- The first part that has another size than it should, as an error. A size that cannot be said is
a breach. -/
def checkSizes : List (KeyPart × Nat × Option Nat) → Outcome ProvingError Unit
  | [] => return ()
  | (part, got, size) :: rest => do
    let expected ← Outcome.require size
    if got = expected then checkSizes rest else Outcome.report (.malformedKey part got expected)

/-- The checks of the key and the witness against the system; the domain of the system. -/
def ProvingKey.fits (pk : ProvingKey G₁ G₂) (s : R1CS K) (w : Witness K) :
    Outcome ProvingError (Domain K) := do
  Outcome.ofExcept ((s.modulus.ensure K).mapError .field)
  Outcome.ofExcept ((w.modulus.ensure K).mapError .field)
  if pk.vk.digest ≠ s.digest then Outcome.report .keyMismatch
  else if w.digest ≠ s.digest then Outcome.report .witnessMismatch
  else if w.values.size ≠ s.numWires then Outcome.report (.witnessSize s.numWires w.values.size)
  else do
    let d ← Outcome.ofExcept ((Qap.domainFor s.toConstraintSystem).mapError .domain)
    checkSizes (pk.sizes s.toConstraintSystem d)
    return d

section
variable [ScalarGroup K G₁] [ScalarGroup K G₂]

/-- The proof for a vector of wires, its quotient and the blinding scalars. -/
def proofOf [Workers] (pk : ProvingKey G₁ G₂) (numInstance : Nat) (z h : List (Fp K)) (r s : Fp K) :
    Proof G₁ G₂ :=
  let a : G₁ := pk.vk.alpha + msm Workers.proving pk.aPoints z + r • pk.delta
  let b₂ : G₂ := pk.vk.beta + msm Workers.proving pk.bPoints₂ z + s • pk.vk.delta
  let b₁ : G₁ := pk.beta + msm Workers.proving pk.bPoints z + s • pk.delta
  let c : G₁ := msm Workers.proving pk.privatePoints (z.drop numInstance) +
    msm Workers.proving pk.quotientPoints h + s • a + r • b₁ + -((r * s) • pk.delta)
  ⟨a, b₂, c⟩

/-- All that comes before the scalars are drawn: the checks and the quotient. -/
def prepareProof (s : R1CS K) (pk : ProvingKey G₁ G₂) (w : Witness K) :
    Outcome ProvingError (Array (Fp K)) := do
  let d ← pk.fits s w
  (s.check w.values).mapError ProvingError.unsatisfied
  (Qap.quotient s.toConstraintSystem d w.values).mapError ProvingError.domain

/-- Proves that the witness satisfies the system, with two draws from the source. -/
def prove [Workers] {σ : Type} [RandomSource σ] (s : R1CS K) (pk : ProvingKey G₁ G₂)
    (w : Witness K) : Draws σ (Failure ProvingError) (Proof G₁ G₂) := do
  match prepareProof s pk w with
  | .error e => throw e
  | .ok h => do
    let r ← Fp.sample K fun e => .reported (.randomness e)
    let t ← Fp.sample K fun e => .reported (.randomness e)
    return proofOf pk s.numInstance w.values.toList h.toList r t

end

end Groth16
