import Groth16.Console.Commands
import Groth16.Service.Exchange
import Groth16.Service.Handler

/-!
# The program

The first argument says what to do: `setup`, `prover` and `verifier` run the commands with the other
arguments, and `api` serves one connection over standard input and output.
-/

set_option autoImplicit false

namespace Groth16

/-- The problem that an error of the system stands for. -/
def FileProblem.ofError : IO.Error → FileProblem
  | .noFileOrDirectory _ _ _ => .missing
  | .noSuchThing _ _ _ => .missing
  | .inappropriateType _ _ _ => .isFolder
  | e => .other (toString e)

instance : Host IO where
  read path := do
    try
      return .ok (← IO.FS.readBinFile path).toList
    catch e => return .error (.ofError e)
  write path bs := do
    try
      IO.FS.writeBinFile path ⟨bs.toArray⟩
      return .ok ()
    catch e => return .error (.ofError e)
  print line := IO.println line
  report line := IO.eprintln line
  generator := return .ofKey (← IO.getRandomBytes 32).toList
  timed x := do
    let start ← IO.monoNanosNow
    let a ← IO.lazyPure x
    return (a, (← IO.monoNanosNow) - start)

/-- The settings of the environment of the program. -/
def Settings.read : IO Settings := do
  let names :=
    ["ZKR1CS_THREADS", "ZKR1CS_ADDR", "ZKR1CS_MAX_BODY", "ZKR1CS_LOG_JSON", "ZKR1CS_DEV_SEED"]
  let values ← names.mapM fun name => return (name, ← IO.getEnv name)
  return .ofEnvironment fun name => (values.lookup name).join

/-- The status with which a command ends. -/
def finish (result : Except (Failure CommandError) Unit) : IO UInt32 := do
  match result with
  | .ok _ => return 0
  | .error (.reported e) =>
    IO.eprintln s!"Error: {e.message}"
    return 1
  | .error .breach =>
    IO.eprintln "Error: internal error"
    return 101

/-- Reads lines up to an empty one. -/
partial def readHead (input : IO.FS.Stream) (lines : List String) : IO (List String) := do
  let line := (← input.getLine).trimAsciiEnd.toString
  if line.isEmpty then return lines.reverse else readHead input (line :: lines)

/-- Reads a number of bytes, or fewer if the input ends. -/
partial def readBody (input : IO.FS.Stream) (count : Nat) (done : ByteArray) : IO ByteArray := do
  if count ≤ done.size then return done
  else
    let more ← input.read (count - done.size).toUSize
    if more.isEmpty then return done else readBody input count (done ++ more)

/-- The store of the service. -/
abbrev Store := KeyStore bn254Scalar Bn254.G1 Bn254.G2 Bn254.Fq12

/-- Answers requests until the input ends. -/
partial def serve (config : ServiceConfig) (store : Store) (source : ChaCha) : IO Unit := do
  let input ← IO.getStdin
  match RequestHead.parse? (← readHead input []) with
  | none => return
  | some head =>
    let body ← readBody input head.bodyLength .empty
    let request := head.withBody ((String.fromUTF8? body).getD "")
    let ((response, store), source) := (handle config store request).run source
    let output ← IO.getStdout
    output.putStr response.render
    output.flush
    serve config store source

/-- Starts the service. -/
def startService (settings : Settings) : IO UInt32 := do
  match settings.socketAddress with
  | .error e =>
    IO.eprintln s!"Error: {e.message}"
    return 1
  | .ok _ =>
    serve ⟨settings.devSeed, settings.maxBody, "bn254"⟩ Dictionary.empty
      (.ofKey (← IO.getRandomBytes 32).toList)
    return 0

/-- Runs the program with its arguments. -/
def run (args : List String) : IO UInt32 := do
  let settings ← Settings.read
  match args with
  | "setup" :: rest => finish (← (Command.setup settings rest : Command.Step IO Unit).run)
  | "prover" :: rest => finish (← (Command.prove rest : Command.Step IO Unit).run)
  | "verifier" :: rest => finish (← (Command.verify rest : Command.Step IO Unit).run)
  | "api" :: _ => startService settings
  | _ =>
    IO.eprintln "usage: groth16 setup|prover|verifier|api [option]..."
    return 2

end Groth16

/-- Runs the program. -/
def main (args : List String) : IO UInt32 := Groth16.run args
