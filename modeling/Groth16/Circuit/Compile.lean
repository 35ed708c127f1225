import Groth16.Circuit.Builder

/-!
# Compiling circuits

A circuit is a schema and a definition. Compiling it allocates the public inputs and then the
secret inputs, seals them, runs the definition once and freezes what it built.

* `Inputs`: the input wires by name.
* `Circuit`: a schema and a definition.
* `Circuit.compile`: the constraint system of a circuit.
-/

set_option autoImplicit false

namespace Groth16

/-- The input wires, by name. -/
structure Inputs where
  /-- The names and their wires, in the order of the wires. -/
  wires : List (String × Wire)

namespace Inputs

/-- The wire of a declared input. -/
def get {K : PrimeField} (io : Inputs) (name : String) : Build K Wire :=
  match io.wires.lookup name with
  | some w => return w
  | none => Build.report (.unknownInput name)

/-- How many inputs there are. -/
def size (io : Inputs) : Nat := io.wires.length

end Inputs

/-- A schema and a definition. -/
structure Circuit (K : PrimeField) where
  /-- The inputs. -/
  schema : Schema
  /-- The operations on the inputs. -/
  define : Inputs → Build K Unit

namespace Circuit

variable {K : PrimeField}

/-- Allocates inputs of one role. -/
def allocateAll (role : Role) (names : List String) : Build K (List (String × Wire)) :=
  names.mapM fun name => return (name, ← Build.allocate role)

/-- Allocates the inputs of a schema and seals them. -/
def declare (schema : Schema) : Build K Inputs := do
  let publics ← allocateAll .public (schema.names .public)
  let secrets ← allocateAll .secret (schema.names .secret)
  Build.sealInputs
  return ⟨publics ++ secrets⟩

/-- The checks that come before anything is built. -/
def precheck (K : PrimeField) (modulus : Modulus) (schema : Schema) : Except CompileError Unit := do
  (modulus.ensure K).mapError .field
  schema.validate

/-- Compiles the circuit for the field that `modulus` names. `session` is the number of the
compilation; handles of compilations with different numbers are told apart. -/
def compile (c : Circuit K) (modulus : Modulus) (session : Nat) :
    Outcome CompileError (R1CS K) := do
  Outcome.ofExcept (precheck K modulus c.schema)
  let build : Build K Unit := do c.define (← declare c.schema)
  match build.run.run (Builder.fresh K session) with
  | (.ok _, b) => return b.finish (c.schema.names .public) (c.schema.names .secret) modulus
  | (.error failure, _) => throw failure

end Circuit

end Groth16
