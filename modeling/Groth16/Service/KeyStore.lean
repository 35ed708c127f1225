import Groth16.Circuit.Known
import Groth16.Protocol.CircuitKeys
import Groth16.Random.ChaCha
import Groth16.Statement.Files
import Groth16.Text.Base64
import Groth16.Text.Blank

/-!
# The key store of a service

A service keeps the keys of at most one setup for each built-in circuit. Requests overlap in time,
but each touches the store at most twice: it looks up the keys of a circuit when it starts, or it
enters the keys of a circuit when it ends.

* `KeyStore`: the keys by the name of their circuit; `KeyStore.lookup` and `KeyStore.enter` are the
  two ways to touch it.
* `SetupOrder`, `ProofOrder`, `VerificationOrder`: what is asked for, and `run` what is done about
  it.
* `Refusal`: why it is not done.
-/

set_option autoImplicit false

namespace Groth16

/-- Why something that was asked for is not done. -/
inductive Refusal where
  /-- There is no built-in circuit of that name. -/
  | unknownCircuit (name : String)
  /-- There are no keys for the circuit. -/
  | noKeys (name : String)
  /-- The text of the proof is not one of bytes. -/
  | proofText
  /-- A step fails. -/
  | phase (cause : PhaseError)
  /-- A step breaks off. -/
  | broken
  deriving DecidableEq

namespace Refusal

/-- The status of the answer. -/
def status : Refusal → Nat
  | .unknownCircuit _ => 404
  | .noKeys _ => 409
  | .proofText => 400
  | .phase cause =>
    if cause.isUnsatisfiable then 422
    else match cause with
      | .assign _ | .verify _ | .artifact _ => 400
      | .compile _ | .setup _ | .prove _ => 500
  | .broken => 500

/-- The text of the answer. -/
def message : Refusal → String
  | .unknownCircuit name => s!"unknown circuit `{name}`"
  | .noKeys name => s!"no keys for `{name}`; POST /v1/setup first"
  | .proofText => "proof_b64: invalid text"
  | .phase cause => cause.message
  | .broken => "worker failed"

/-- The refusal of a step that failed. -/
def ofFailure : Failure PhaseError → Refusal
  | .reported cause => .phase cause
  | .breach => .broken

end Refusal

/-- A result that is refused if a step fails. -/
def orRefuse {α : Type} (x : Outcome PhaseError α) : Except Refusal α :=
  Except.mapError Refusal.ofFailure x

variable {K : PrimeField} {G₁ G₂ T : Type}

/-- The keys of circuits, by name. -/
abbrev KeyStore (K : PrimeField) (G₁ G₂ T : Type) := Dictionary (CircuitKeys K G₁ G₂ T)

/-- The built-in circuit of a name. -/
def knownCircuit (K : PrimeField) (name : String) : Except Refusal (Circuit K) :=
  match Circuit.find? K name with
  | some c => .ok c
  | none => .error (.unknownCircuit name)

namespace KeyStore

/-- The keys of a circuit. -/
def lookup (store : KeyStore K G₁ G₂ T) (name : String) :
    Except Refusal (CircuitKeys K G₁ G₂ T) := do
  discard (knownCircuit K name)
  match store.find? name with
  | some keys => return keys
  | none => throw (.noKeys name)

/-- The store with the keys of a circuit entered in the place of earlier ones. -/
def enter (store : KeyStore K G₁ G₂ T) (name : String) (keys : CircuitKeys K G₁ G₂ T) :
    KeyStore K G₁ G₂ T :=
  store.insert name keys

end KeyStore

/-- The number of a compilation. A service compiles no circuit that mentions another one's wires. -/
def serviceSession : Nat := 1

/-- An assignment of literals. -/
def literals (K : PrimeField) (texts : Dictionary String) : Except Refusal (Assignment K) :=
  (Assignment.ofLiterals texts.entries).mapError fun e => .phase (.assign e)

section
variable [ScalarGroup K G₁] [ScalarGroup K G₂] [Pairing K G₁ G₂ T]

/-! ## Setup -/

/-- Asks for keys. -/
structure SetupOrder where
  /-- The name of the circuit. -/
  circuit : String

namespace SetupOrder

/-- Generates the keys; from the seed, if there is one, and else from the source. -/
def run {σ : Type} [RandomSource σ] (order : SetupOrder) (seed : Option UInt64) :
    StateM σ (Except Refusal (CircuitKeys K G₁ G₂ T)) := do
  match knownCircuit K order.circuit with
  | .error e => return .error e
  | .ok c => match seed with
    | some seed =>
      return orRefuse (((CircuitKeys.generate order.circuit c serviceSession).run
        (ChaCha.ofSeed seed)).1)
    | none => return orRefuse (← (CircuitKeys.generate order.circuit c serviceSession).run)

end SetupOrder

/-! ## Proofs -/

/-- Asks for a proof. -/
structure ProofOrder where
  /-- The name of the circuit. -/
  circuit : String
  /-- The literals of the secret inputs. -/
  secret : Dictionary String
  /-- The literals of the public inputs. -/
  publics : Dictionary String

namespace ProofOrder

/-- What has to be there for a proof: the keys and the inputs. -/
def gather (order : ProofOrder) (store : KeyStore K G₁ G₂ T) :
    Except Refusal (CircuitKeys K G₁ G₂ T × Assignment K × Assignment K) := do
  let keys ← store.lookup order.circuit
  let secret ← literals K order.secret
  let publics ← literals K order.publics
  return (keys, secret, publics)

variable [PointEncoding G₁] [PointEncoding G₂]

/-- Makes the proof. Gives its artifact as a text, and the statement. -/
def run [Workers] {σ : Type} [RandomSource σ] (order : ProofOrder) (store : KeyStore K G₁ G₂ T) :
    StateM σ (Except Refusal (Statement × String)) := do
  match order.gather store with
  | .error e => return .error e
  | .ok (keys, secret, publics) => do
    let result ← (keys.prove secret publics).run
    return do
      let (proof, w) ← orRefuse result
      return (Statement.ofWitness order.circuit keys.r1cs w,
        Base64.encode (Artifact.encode .proof proof))

end ProofOrder

/-! ## Verification -/

/-- Asks whether a proof is accepted. -/
structure VerificationOrder where
  /-- The name of the circuit. -/
  circuit : String
  /-- The artifact of the proof as a text. -/
  proof : String
  /-- The literals of the public inputs. -/
  publics : Dictionary String

namespace VerificationOrder

variable [PointEncoding G₁] [PointEncoding G₂]

/-- The proof of a text. -/
def proofOfText (s : String) : Except Refusal (Proof G₁ G₂) := do
  match Base64.decode? (Text.trim s) with
  | none => throw .proofText
  | some bs => orRefuse ((Artifact.decode .proof bs).mapError PhaseError.artifact)

/-- Verifies the proof. -/
def run [Workers] (order : VerificationOrder) (store : KeyStore K G₁ G₂ T) :
    Except Refusal Bool := do
  let keys ← store.lookup order.circuit
  let proof ← proofOfText order.proof
  let publics ← literals K order.publics
  orRefuse (Outcome.ofExcept (keys.verify proof publics))

end VerificationOrder

end

end Groth16
