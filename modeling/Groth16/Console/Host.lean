import Groth16.Console.FileTree
import Groth16.Random.ChaCha
import Groth16.Text.Lines

/-!
# Hosts

What a command needs of its surroundings: files, two streams of lines, random bytes and a clock.
Commands are generic in it, so that the same command runs on a machine and on a value.

* `Host`: the interface.
* `Desk`: a host that is a value, with a file tree, the lines written so far and a supply of seeds.
-/

set_option autoImplicit false

namespace Groth16

/-- The surroundings of a command. -/
class Host (m : Type → Type) where
  /-- The content of a file. -/
  read : String → m (Except FileProblem Bytes)
  /-- Sets the content of a file. -/
  write : String → Bytes → m (Except FileProblem Unit)
  /-- Writes a line of output. -/
  print : String → m Unit
  /-- Writes a line about what is going on. -/
  report : String → m Unit
  /-- A generator that nobody else has. -/
  generator : m ChaCha
  /-- The value of a computation, and the time in nanoseconds that it took. -/
  timed {α : Type} : (Unit → α) → m (α × Nat)

/-- A host that is a value. -/
structure Desk where
  /-- The files. -/
  tree : FileTree
  /-- The lines of output, latest first. -/
  printed : List String
  /-- The lines about what is going on, latest first. -/
  reported : List String
  /-- The seed of the next generator. -/
  seed : UInt64

/-- A desk with files and nothing written. -/
def Desk.ofTree (tree : FileTree) (seed : UInt64) : Desk := ⟨tree, [], [], seed⟩

instance : Host (StateM Desk) where
  read path := return (← get).tree.read path
  write path bs := do
    match (← get).tree.write path bs with
    | .ok tree => do
      modify fun d => { d with tree }
      return .ok ()
    | .error e => return .error e
  print line := modify fun d => { d with printed := (Text.linesOf line).reverse ++ d.printed }
  report line := modify fun d => { d with reported := (Text.linesOf line).reverse ++ d.reported }
  generator := do
    let d ← get
    set { d with seed := d.seed + 1 }
    return ChaCha.ofSeed d.seed
  timed x := return (x (), 0)

end Groth16
