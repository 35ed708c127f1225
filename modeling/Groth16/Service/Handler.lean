import Groth16.Service.Address
import Groth16.Service.KeyStore
import Groth16.Service.Message
import Groth16.Service.Settings

/-!
# The service

Six targets over a key store. Anybody may ask from anywhere: a question about what can be asked is
answered with yes for every target.

* `ServiceConfig`: what is fixed when the service starts.
* `respond`: the reply to a request, for the store as it is when the request starts.
* `Reply.commit`: the store after the reply.
* `handle`: both at once, for requests one after the other.
-/

set_option autoImplicit false

namespace Groth16

/-- Why the service does not start. -/
inductive StartError where
  /-- The text is no address. -/
  | address (text : String)
  /-- The address is that of another machine. -/
  | elsewhere
  deriving DecidableEq

/-- The text of the error. -/
def StartError.message : StartError → String
  | .address text => s!"ZKR1CS_ADDR `{text}`: invalid socket address syntax"
  | .elsewhere => "Cannot assign requested address (os error 99)"

/-- The address on which the service listens. -/
def Settings.socketAddress (s : Settings) : Except StartError SocketAddress :=
  match SocketAddress.parse? s.address with
  | some a => if a.host.isOwn then .ok a else .error .elsewhere
  | none => .error (.address s.address)

/-- What is fixed when the service starts. -/
structure ServiceConfig where
  /-- The seed of setups that can be repeated. -/
  devSeed : Option UInt64
  /-- How many bytes the body of a request may have. -/
  maxBody : Nat
  /-- The name of the curve. -/
  curve : String

variable {K : PrimeField} {G₁ G₂ T : Type}

/-- The reply to a request. -/
structure Reply (K : PrimeField) (G₁ G₂ T : Type) where
  /-- What is answered. -/
  response : Response
  /-- The keys that are entered into the store, with the name of their circuit. -/
  entry : Option (String × CircuitKeys K G₁ G₂ T) := none

namespace Reply

/-- The store after the reply. -/
def commit (r : Reply K G₁ G₂ T) (store : KeyStore K G₁ G₂ T) : KeyStore K G₁ G₂ T :=
  match r.entry with
  | some (name, keys) => store.enter name keys
  | none => store

/-- A reply that leaves the store alone. -/
def plain (status : Nat) (content : Content) : Reply K G₁ G₂ T := { response := ⟨status, content⟩ }

/-- The reply with a JSON value. -/
def json (value : JsonValue) : Reply K G₁ G₂ T := plain 200 (.json value)

/-- The reply to something that is refused. -/
def refused (cause : Refusal) : Reply K G₁ G₂ T := plain cause.status (.text cause.message)

/-- The reply to a body that is rejected. -/
def rejected (cause : Rejection) : Reply K G₁ G₂ T := plain cause.status (.rejection cause)

/-- The reply for a target that does not exist. -/
def notFound : Reply K G₁ G₂ T := plain 404 (.text "")

/-- The reply to a method that the target does not have. -/
def notAllowed : Reply K G₁ G₂ T := plain 405 (.text "")

end Reply

/-! ## What can be got -/

/-- Says that the service is there. -/
def healthValue : JsonValue := .object [("status", .text "ok")]

/-- The version of the service. -/
def versionValue (config : ServiceConfig) : JsonValue :=
  .object [("api", .text "0.1.0"), ("protocol", .text "groth16"), ("curve", .text config.curve),
    ("parallel", .bool true)]

/-- A built-in circuit, and whether there are keys for it. -/
def circuitValue (store : KeyStore K G₁ G₂ T) (e : Circuit.Entry K) : JsonValue :=
  let keys := store.find? e.name
  .object ([("name", .text e.name), ("description", .text e.about), ("ready", .bool keys.isSome)] ++
    (keys.map fun k => ("r1cs_digest", JsonValue.text k.r1cs.digest.hex)).toList)

/-- The built-in circuits. -/
def circuitsValue (store : KeyStore K G₁ G₂ T) : JsonValue :=
  .list ((Circuit.known K).map (circuitValue store))

section
variable [ScalarGroup K G₁] [ScalarGroup K G₂] [Pairing K G₁ G₂ T]
variable [PointEncoding G₁] [PointEncoding G₂]
variable {σ : Type} [RandomSource σ]

/-! ## What can be sent -/

/-- The answer with new keys. -/
def keysValue (keys : CircuitKeys K G₁ G₂ T) : JsonValue :=
  .object [("circuit", .text keys.name), ("r1cs_digest", .text keys.r1cs.digest.hex),
    ("constraints", .number keys.r1cs.numConstraints), ("variables", .number keys.r1cs.numWires),
    ("public_inputs", .list (keys.r1cs.publicNames.map .text)),
    ("domain_size", .number keys.pk.domainSize.toNat),
    ("vk_b64", .text (Base64.encode (Artifact.encode .verifyingKey keys.vk)))]

/-- Generates keys, which are entered under the name of their circuit. -/
def setupReply (config : ServiceConfig) (order : SetupOrder) : StateM σ (Reply K G₁ G₂ T) := do
  match ← order.run config.devSeed with
  | .error e => return .refused e
  | .ok keys =>
    return { response := ⟨200, .json (keysValue keys)⟩, entry := some (order.circuit, keys) }

/-- Makes a proof. -/
def proofReply [Workers] (order : ProofOrder) (store : KeyStore K G₁ G₂ T) :
    StateM σ (Reply K G₁ G₂ T) := do
  match ← order.run store with
  | .error e => return .refused e
  | .ok (statement, proof) =>
    return .json (.object (statement.members ++ [("proof_b64", .text proof)]))

/-- Verifies a proof. -/
def verificationReply [Workers] (order : VerificationOrder) (store : KeyStore K G₁ G₂ T) :
    Reply K G₁ G₂ T :=
  match order.run store with
  | .error e => .refused e
  | .ok true => .json (.object [("status", .text "ok")])
  | .ok false =>
    .json (.object [("status", .text "invalid"), ("reason", .text "pairing check failed")])

/-- The fields of the body of a setup. -/
def setupFields : List JsonField := [.text "circuit"]

/-- The fields of the body that asks for a proof. -/
def proofFields : List JsonField :=
  [.text "circuit", .textsOrEmpty "secret", .textsOrEmpty "public"]

/-- The fields of the body that asks for a verification. -/
def verificationFields : List JsonField :=
  [.text "circuit", .text "proof_b64", .textsOrEmpty "public"]

/-! ## Targets -/

/-- The reply to a request that wants to get something. -/
def getReply (value : JsonValue) (method : Method) : Reply K G₁ G₂ T :=
  match method with
  | .get | .head => .json value
  | _ => .notAllowed

/-- The reply to a request that sends something. -/
def postReply (config : ServiceConfig) (request : Request) (fields : List JsonField)
    (run : JsonField.Record fields → StateM σ (Reply K G₁ G₂ T)) : StateM σ (Reply K G₁ G₂ T) :=
  match request.method with
  | .post => match request.read config.maxBody fields with
    | .ok r => run r
    | .error e => return .rejected e
  | _ => return .notAllowed

/-- The reply of a target. -/
def targetReply [Workers] (config : ServiceConfig) (store : KeyStore K G₁ G₂ T)
    (request : Request) : StateM σ (Reply K G₁ G₂ T) :=
  match request.path with
  | "/v1/health" => return getReply healthValue request.method
  | "/v1/version" => return getReply (versionValue config) request.method
  | "/v1/circuits" => return getReply (circuitsValue store) request.method
  | "/v1/setup" => postReply config request setupFields fun (circuit, _) =>
    setupReply config ⟨circuit⟩
  | "/v1/prove" => postReply config request proofFields fun (circuit, secret, publics, _) =>
    proofReply ⟨circuit, secret, publics⟩ store
  | "/v1/verify" => postReply config request verificationFields fun (circuit, proof, publics, _) =>
    return verificationReply ⟨circuit, proof, publics⟩ store
  | _ => return .notFound

/-- The reply to a request, for the store as it is when the request starts. -/
def respond [Workers] (config : ServiceConfig) (store : KeyStore K G₁ G₂ T) (request : Request) :
    StateM σ (Reply K G₁ G₂ T) := do
  if request.method = .options then return .plain 200 (.text "")
  let reply ← targetReply config store request
  if request.method = .head then return { reply with response := reply.response.withoutContent }
  else return reply

/-- The answer to a request and the store after it, if no other request comes in between. -/
def handle [Workers] (config : ServiceConfig) (store : KeyStore K G₁ G₂ T) (request : Request) :
    StateM σ (Response × KeyStore K G₁ G₂ T) := do
  let reply ← respond config store request
  return (reply.response, reply.commit store)

end

end Groth16
