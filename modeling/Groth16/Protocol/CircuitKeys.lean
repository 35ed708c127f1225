import Groth16.Artifact.Frame
import Groth16.Circuit.Compile
import Groth16.Protocol.Prover
import Groth16.Protocol.Setup
import Groth16.Protocol.Verifier

/-!
# Circuits with their keys

The way from named inputs to a proof and back: a circuit is compiled, its inputs are assigned, keys
are set up, and proofs are made and verified, each step with errors of its own.

* `PhaseError`: an error with the step that it came from.
* `CircuitKeys`: a compiled circuit with its keys; `CircuitKeys.generate` runs a fresh setup and
  `CircuitKeys.attach` takes a key that exists.
* `CircuitKeys.prove`, `CircuitKeys.verify`: proofs from and for named inputs.
-/

set_option autoImplicit false

namespace Groth16

/-- An error with the step that it came from. -/
inductive PhaseError where
  /-- The circuit does not compile. -/
  | compile (cause : CompileError)
  /-- The inputs give no witness. -/
  | assign (cause : WitnessError)
  /-- There are no keys. -/
  | setup (cause : SetupError)
  /-- There is no proof. -/
  | prove (cause : ProvingError)
  /-- The proof can be neither accepted nor refused. -/
  | verify (cause : VerificationError)
  /-- An artifact cannot be read. -/
  | artifact (cause : ArtifactError)
  deriving DecidableEq

namespace PhaseError

/-- The text of the error. -/
def message : PhaseError → String
  | .compile cause => s!"compile: {cause.message}"
  | .assign cause => s!"assign: {cause.message}"
  | .setup cause => s!"setup: {cause.message}"
  | .prove cause => s!"prove: {cause.message}"
  | .verify cause => s!"verify: {cause.message}"
  | .artifact cause => s!"io: {cause.message}"

/-- The inputs do not satisfy the circuit. -/
def isUnsatisfiable : PhaseError → Bool
  | .assign (.unsatisfied _) => true
  | .prove (.unsatisfied _) => true
  | _ => false

end PhaseError

/-- The draws with their errors as errors of another type. -/
def Draws.mapError {σ ε ε' α : Type} (f : ε → ε') (x : Draws σ (Failure ε) α) :
    Draws σ (Failure ε') α :=
  ExceptT.adapt (Failure.map f) x

/-- An outcome that draws nothing. -/
def Draws.ofOutcome {σ ε α : Type} (x : Outcome ε α) : Draws σ (Failure ε) α := ExceptT.mk (pure x)

/-- A compiled circuit with its keys. -/
structure CircuitKeys (K : PrimeField) (G₁ G₂ T : Type) where
  /-- The name under which the circuit is known. -/
  name : String
  /-- The compiled circuit. -/
  r1cs : R1CS K
  /-- The proving key. -/
  pk : ProvingKey G₁ G₂
  /-- The verifying key, prepared. -/
  pvk : PreparedKey G₁ G₂ T

namespace CircuitKeys

variable {K : PrimeField} {G₁ G₂ T : Type} [ScalarGroup K G₁] [ScalarGroup K G₂] [Pairing K G₁ G₂ T]

/-- The verifying key. -/
def vk (keys : CircuitKeys K G₁ G₂ T) : VerifyingKey G₁ G₂ := keys.pk.vk

/-- A compiled circuit and a proving key, with the verifying key prepared. -/
def ofKey (name : String) (r1cs : R1CS K) (pk : ProvingKey G₁ G₂) : CircuitKeys K G₁ G₂ T :=
  ⟨name, r1cs, pk, pk.vk.prepare⟩

/-- Compiles a circuit for the field of the groups. -/
def compile (c : Circuit K) (session : Nat) : Outcome PhaseError (R1CS K) :=
  (c.compile K.descriptor session).mapError PhaseError.compile

/-- Compiles a circuit and runs a setup for it. -/
def generate {σ : Type} [RandomSource σ] (name : String) (c : Circuit K) (session : Nat) :
    Draws σ (Failure PhaseError) (CircuitKeys K G₁ G₂ T) := do
  let r1cs ← Draws.ofOutcome (compile c session)
  let pk ← (setup r1cs).mapError PhaseError.setup
  return ofKey name r1cs pk

/-- Compiles a circuit and attaches a key that was generated for it. -/
def attach (name : String) (c : Circuit K) (session : Nat) (pk : ProvingKey G₁ G₂) :
    Outcome PhaseError (CircuitKeys K G₁ G₂ T) := do
  let r1cs ← compile c session
  if pk.vk.digest ≠ r1cs.digest then Outcome.report (.prove .keyMismatch)
  else return ofKey name r1cs pk

/-- Proves that the circuit is satisfied by named inputs. Gives the proof and the values of the
public inputs that it is verified with. -/
def prove [Workers] {σ : Type} [RandomSource σ] (keys : CircuitKeys K G₁ G₂ T)
    (secret publics : Assignment K) :
    Draws σ (Failure PhaseError) (Proof G₁ G₂ × PublicWitness K) := do
  let w ← Draws.ofOutcome ((keys.r1cs.assign secret publics).mapError PhaseError.assign)
  let proof ← (Groth16.prove keys.r1cs keys.pk w).mapError PhaseError.prove
  return (proof, w.publicPart)

/-- Verifies a proof for named public inputs. -/
def verify [Workers] (keys : CircuitKeys K G₁ G₂ T) (proof : Proof G₁ G₂) (publics : Assignment K) :
    Except PhaseError Bool := do
  let w ← (keys.r1cs.publicWitness publics).mapError .assign
  (verifyPrepared keys.pvk proof w).mapError .verify

end CircuitKeys

end Groth16
