import Groth16.Circuit.Known
import Groth16.Console.Host
import Groth16.Curve.Bn254.Encoding
import Groth16.Curve.Bn254.Pairing
import Groth16.Protocol.CircuitKeys
import Groth16.Protocol.KeySize
import Groth16.Service.Settings
import Groth16.Statement.Files

/-!
# Commands

Three commands for the built-in circuits over BN254. Each reads its options, works step by step
and reports its progress; it stops at the first error.

* `Command.setup`: generates keys.
* `Command.prove`: makes a proof and its statement from an input file.
* `Command.verify`: checks a proof against a statement.
* `CommandError`: all that can stop a command.
-/

set_option autoImplicit false

namespace Groth16

/-- Why an artifact cannot be read from a file. -/
inductive LoadError where
  /-- The file cannot be read. -/
  | file (path : String) (cause : FileProblem)
  /-- The file holds something else. -/
  | artifact (cause : ArtifactError)

/-- The text of the error. -/
def LoadError.message : LoadError → String
  | .file path cause => s!"{path}: {cause.message}"
  | .artifact cause => cause.message

/-- Why a command stops. -/
inductive CommandError where
  /-- There is no built-in circuit of that name; `listed` says that the command can list them. -/
  | unknownCircuit (name : String) (listed : Bool)
  /-- The circuit does not compile. -/
  | compile (name : String) (cause : CompileError)
  /-- There are no keys. -/
  | setup (name : String) (cause : SetupError)
  /-- The key does not go with the circuit. -/
  | attach (name : String) (cause : PhaseError)
  /-- An artifact cannot be read. -/
  | readArtifact (kind : ArtifactKind) (cause : LoadError)
  /-- An artifact cannot be written. -/
  | writeArtifact (kind : ArtifactKind) (path : String) (cause : FileProblem)
  /-- A text cannot be read. -/
  | readText (path : String) (cause : FileProblem)
  /-- A text cannot be written. -/
  | writeText (path : String) (cause : FileProblem)
  /-- A text is not what it should be. -/
  | parse (path : String) (fault : JsonFault)
  /-- The inputs of a role cannot be used. -/
  | inputs (role : Role) (cause : WitnessError)
  /-- The inputs give no witness. -/
  | assign (cause : WitnessError)
  /-- There is no proof. -/
  | prove (cause : ProvingError)
  /-- The statement is about another system than the circuit of its name compiles to. -/
  | otherBuild (name : String)
  /-- The verifying key is for another circuit. -/
  | otherCircuit
  /-- The proof can be neither accepted nor refused. -/
  | verify (cause : VerificationError)
  /-- The proof is refused. -/
  | rejected

/-- The text of a fault. -/
def JsonFault.message : JsonFault → String
  | .malformed => "malformed JSON"
  | .unexpectedEnd => "unexpected end of JSON"
  | .mismatch => "unexpected JSON value"

/-- The text of the error. -/
def CommandError.message : CommandError → String
  | .unknownCircuit name listed =>
    s!"unknown circuit `{name}`" ++ if listed then " (try --list)" else ""
  | .compile name cause => s!"compile {name}: {cause.message}"
  | .setup name cause => s!"setup {name}: {cause.message}"
  | .attach name cause => s!"{name}: {cause.message}"
  | .readArtifact kind cause => s!"read {kind.name}: {cause.message}"
  | .writeArtifact kind path cause => s!"write {kind.name}: {path}: {cause.message}"
  | .readText path cause => s!"read {path}: {cause.message}"
  | .writeText path cause => s!"write {path}: {cause.message}"
  | .parse path fault => s!"parse {path}: {fault.message}"
  | .inputs role cause => s!"{role.name} inputs: {cause.message}"
  | .assign cause => s!"assign: {cause.message}"
  | .prove cause => s!"prove: {cause.message}"
  | .otherBuild name => s!"public statement was produced for a different build of `{name}`"
  | .otherCircuit => "verifying key was generated for a different circuit"
  | .verify cause => s!"verification failed: {cause.message}"
  | .rejected => "proof does not verify"

/-! ## Options and times -/

/-- The value of an option, from the first argument that is the option or starts with it and an
equals sign. Without an equals sign the value is the next argument. -/
def option? (name : String) : List String → Option String
  | [] => none
  | arg :: rest =>
    if arg = name then rest.head?
    else if arg.startsWith (name ++ "=") then some (arg.drop (name.length + 1)).toString
    else option? name rest

/-- A number of hundredths with two places. -/
def hundredths (n : Nat) : String :=
  let rest := n % 100
  s!"{n / 100}.{rest / 10}{rest % 10}"

/-- A number of nanoseconds in the largest unit that is not larger. -/
def elapsedText (n : Nat) : String :=
  let inUnit (unit : Nat) : String := hundredths ((n * 100 + unit / 2) / unit)
  if 1000000000 ≤ n then inUnit 1000000000 ++ "s"
  else if 1000000 ≤ n then inUnit 1000000 ++ "ms"
  else if 1000 ≤ n then inUnit 1000 ++ "µs"
  else inUnit 1 ++ "ns"

/-- A number of bytes in units of 1024 with one place, a tie to the even digit. -/
def kibibytes (n : Nat) : String :=
  let tenths := n * 10 / 1024
  let rest := n * 10 % 1024
  let tenths := if 512 < rest ∨ (rest = 512 ∧ tenths % 2 = 1) then tenths + 1 else tenths
  s!"{tenths / 10}.{tenths % 10}"

/-- A text filled up with blanks to a width. -/
def padded (width : Nat) (s : String) : String :=
  s ++ String.ofList (List.replicate (width - s.length) ' ')

/-- A line of a length. -/
def rule (length : Nat) : String := String.ofList (List.replicate length '━')

namespace Command

open Bn254

/-- The circuits, keys and proofs of the commands. -/
abbrev Keys := CircuitKeys bn254Scalar G1 G2 Fq12

/-- A step of a command. -/
abbrev Step (m : Type → Type) (α : Type) := ExceptT (Failure CommandError) m α

variable {m : Type → Type} [Monad m] [Host m]

/-- Stops with an error. -/
def stop {α : Type} (e : CommandError) : Step m α := throw (.reported e)

/-- Stops with the error of a result. -/
def check {ε α : Type} (f : ε → CommandError) : Outcome ε α → Step m α
  | .ok a => return a
  | .error e => throw (e.map f)

/-- Stops with the error of a result without breaches. -/
def checked {ε α : Type} (f : ε → CommandError) (x : Except ε α) : Step m α :=
  check f (Outcome.ofExcept x)

/-- Reports a line. -/
def say (line : String) : Step m Unit := liftM (Host.report line : m Unit)

/-- The value of a computation and the time that it took. -/
def timed {α : Type} (x : Unit → α) : Step m (α × String) := do
  let (a, time) ← liftM (Host.timed x : m (α × Nat))
  return (a, elapsedText time)

/-- Reads an artifact. -/
def load {α : Type} [Payload α] (kind : ArtifactKind) (path : String) : Step m α := do
  let bs ← checked (fun e => .readArtifact kind (.file path e)) (← liftM (Host.read (m := m) path))
  check (fun e => .readArtifact kind (.artifact e)) (Artifact.decode kind bs)

/-- Writes an artifact. -/
def save {α : Type} [Payload α] (kind : ArtifactKind) (path : String) (value : α) :
    Step m Unit := do
  checked (.writeArtifact kind path)
    (← liftM (Host.write (m := m) path (Artifact.encode kind value)))

/-- The text of bytes. -/
def textOf (bs : Bytes) : Except FileProblem String :=
  match String.fromUTF8? ⟨bs.toArray⟩ with
  | some s => .ok s
  | none => .error .notText

/-- Reads a text. -/
def loadText (path : String) : Step m String := do
  checked (.readText path) ((← liftM (Host.read (m := m) path)).bind textOf)

/-- The built-in circuit of a name. -/
def circuitOf (name : String) (listed : Bool) : Step m (Circuit bn254Scalar) :=
  match Circuit.find? bn254Scalar name with
  | some c => return c
  | none => stop (.unknownCircuit name listed)

/-- The number of the only compilation of a command. -/
def session : Nat := 1

/-- Compiles the built-in circuit of a name. -/
def compiled (name : String) (c : Circuit bn254Scalar) : Step m (R1CS bn254Scalar) :=
  check (.compile name) (c.compile bn254Scalar.descriptor session)

/-- Lists the built-in circuits. -/
def list : Step m Unit :=
  (Circuit.known bn254Scalar).forM fun e =>
    liftM (Host.print (padded 10 e.name ++ " " ++ e.about) : m Unit)

/-- Warns that a seed is known. -/
def warn (seed : UInt64) : Step m Unit := do
  say (rule 66)
  say s!"⚠️  WARNING: ZKR1CS_DEV_SEED={seed.toNat} makes the toxic waste PUBLIC"
  say "⚠️  Anyone can forge proofs for these keys. Never deploy them."
  say (rule 66)

/-- Generates keys for a built-in circuit, or lists the circuits. -/
def setup (settings : Settings) (args : List String) : Step m Unit := do
  if args.contains "--list" then list
  else
    let name := (option? "--circuit" args).getD "cubic"
    let pkPath := (option? "--out-pk" args).getD "pk.bin"
    let vkPath := (option? "--out-vk" args).getD "vk.bin"
    let r ← compiled name (← circuitOf name true)
    say (s!"✓ Compiled `{name}`: {r.numConstraints} constraints, {r.numWires} wires " ++
      s!"({r.numPublic} public, {r.numSecret} secret)")
    say s!"  R1CS digest: {r.digest.hex}"
    let source ← match settings.devSeed with
      | some seed => do warn seed; pure (ChaCha.ofSeed seed)
      | none => liftM (Host.generator : m ChaCha)
    let (result, time) ← timed fun _ => ((setupPair r).run source).1
    let (pk, vk) : ProvingKey G1 G2 × VerifyingKey G1 G2 ← check (.setup name) result
    say s!"✓ Setup finished in {time}"
    let size ← check id (Outcome.require
      (estimateKeyBytes r.numWires r.numPublic pk.domainSize.toNat))
    say s!"  proving key: ~{kibibytes size} KiB"
    save .provingKey pkPath pk
    save .verifyingKey vkPath vk
    say "✓ Saved keys:"
    say (s!"  {pkPath} (domain N={pk.domainSize.toNat}, " ++
      s!"{pk.quotientPoints.length} h-query points)")
    say s!"  {vkPath} ({vk.numPublic} public inputs)"
    say ""
    say "To prove, run:"
    say s!"  cargo run --bin prover -- --circuit {name} --pk {pkPath} --inputs inputs.json"

/-- Proves that a built-in circuit is satisfied by the inputs of a file. -/
def prove (args : List String) : Step m Unit := do
  let name := (option? "--circuit" args).getD "cubic"
  let pkPath := (option? "--pk" args).getD "pk.bin"
  let inputsPath := (option? "--inputs" args).getD "inputs.json"
  let proofPath := (option? "--out" args).getD "proof.bin"
  let publicPath := (option? "--public-out" args).getD "public.json"
  let c ← circuitOf name false
  say s!"Loading proving key from {pkPath}..."
  let pk : ProvingKey G1 G2 ← load .provingKey pkPath
  let keys : Keys ← check (.attach name) (CircuitKeys.attach name c session pk)
  say (s!"✓ Proving key matches `{name}` (digest {keys.r1cs.digest.hex}, " ++
    s!"domain N={pk.domainSize.toNat})")
  let inputs ← checked (.parse inputsPath) (InputFile.parse (← loadText inputsPath))
  let secret ← checked (.inputs .secret) (Assignment.ofLiterals inputs.secret.entries)
  let publics ← checked (.inputs .public) (Assignment.ofLiterals inputs.publics.entries)
  let (result, time) ← timed fun _ => keys.r1cs.assign secret publics
  let w ← check .assign result
  say s!"✓ Witness solved: {w.values.size} wires in {time}"
  let source ← liftM (Host.generator : m ChaCha)
  let (result, time) ← timed fun _ => ((Groth16.prove keys.r1cs keys.pk w).run source).1
  let proof : Proof G1 G2 ← check .prove result
  say s!"✓ Proof generated in {time}"
  save .proof proofPath proof
  let statement := Statement.ofWitness name keys.r1cs w.publicPart
  checked (.writeText publicPath)
    (← liftM (Host.write (m := m) publicPath (Bytes.ofText statement.value.pretty)))
  say ""
  say s!"✓ Wrote {proofPath} (v{Artifact.version})"
  say s!"✓ Wrote {publicPath}"
  say ""
  say "To verify this proof, run:"
  say s!"  cargo run --bin verifier -- --vk vk.bin --proof {proofPath} --public {publicPath}"

/-- Checks a proof against a statement. -/
def verify (args : List String) : Step m Unit := do
  let vkPath := (option? "--vk" args).getD "vk.bin"
  let proofPath := (option? "--proof" args).getD "proof.bin"
  let publicPath := (option? "--public" args).getD "public.json"
  let vk : VerifyingKey G1 G2 ← load .verifyingKey vkPath
  let proof : Proof G1 G2 ← load .proof proofPath
  let statement ← checked (.parse publicPath) (Statement.parse (← loadText publicPath))
  say s!"✓ Loaded {vkPath} and {proofPath}"
  let name := statement.circuit
  let r ← compiled name (← circuitOf name false)
  say "Cryptographic parameters:"
  say s!"  circuit:          {name}"
  say s!"  R1CS digest:      {r.digest.hex}"
  say s!"  statement digest: {statement.digest}"
  say s!"  key digest:       {vk.digest.hex}"
  if statement.digest ≠ r.digest.hex then stop (.otherBuild name)
  if vk.digest.hex ≠ r.digest.hex then stop .otherCircuit
  let publics ← checked (.inputs .public) (Assignment.ofLiterals statement.publics.entries)
  let w ← checked (.inputs .public) (r.publicWitness publics)
  say ""
  say "Running pairing check..."
  if ← checked .verify (Groth16.verify proof vk w) then
    say ""
    say (rule 56)
    say "✓ VERIFICATION SUCCESSFUL"
    say (rule 56)
    liftM (Host.print "Verifier result: ok" : m Unit)
  else
    say "✗ Proof REJECTED"
    liftM (Host.print "Verifier result: rejected" : m Unit)
    stop .rejected

end Command

end Groth16
