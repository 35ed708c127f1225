import Groth16.Circuit.Constraint
import Groth16.Circuit.Recipe
import Groth16.Field.Modulus
import Groth16.Hash.Digest
import Groth16.Outcome

/-!
# Rank-1 constraint systems

What compiling a circuit yields: constraints over `z = [1, public…, secret…, internal…]`, the names
of the inputs in the order of their wires, and one hint for every internal wire.

* `ConstraintSystem`: the parts.
* `ConstraintSystem.stream`: the bytes that stand for the parts. Every list is preceded by its
  length and every alternative by a code, so that systems with equal streams have equal parts; the
  numbers of compilations do not enter.
* `R1CS`: a constraint system with the digest of its stream.
* `ConstraintSystem.check`: the first constraint that a vector of wires violates.
-/

set_option autoImplicit false

namespace Groth16

/-- Constraints, input names and hints. -/
structure ConstraintSystem (K : PrimeField) where
  /-- The constraints, by row. -/
  constraints : Array (Constraint K)
  /-- The number of wires, the one-wire included. -/
  numWires : Nat
  /-- The names of the public inputs, by wire. -/
  publicNames : List String
  /-- The names of the secret inputs, by wire. -/
  secretNames : List String
  /-- The recipes of the internal wires, in the order in which they are replayed. -/
  hints : Array (Hint K)
  /-- The field that the system was compiled for. -/
  modulus : Modulus

namespace ConstraintSystem

variable {K : PrimeField}

/-- The number of constraints. -/
def numConstraints (s : ConstraintSystem K) : Nat := s.constraints.size

/-- The number of public inputs. -/
def numPublic (s : ConstraintSystem K) : Nat := s.publicNames.length

/-- The number of secret inputs. -/
def numSecret (s : ConstraintSystem K) : Nat := s.secretNames.length

/-- The number of wires that the verifier knows: the one-wire and the public inputs. -/
def numInstance (s : ConstraintSystem K) : Nat := s.numPublic + 1

/-- The number of the other wires, where there are as many wires as the verifier knows. -/
def numPrivate? (s : ConstraintSystem K) : Option Nat :=
  if s.numInstance ≤ s.numWires then some (s.numWires - s.numInstance) else none

/-! ## Digest -/

/-- A byte string behind its length. -/
def framed (bs : Bytes) : Bytes := LinearCombination.word bs.length ++ bs

/-- Names behind their number, each behind its length. -/
def nameStream (names : List String) : Bytes :=
  LinearCombination.word names.length ++ names.flatMap fun n => framed (Bytes.ofText n)

/-- The bytes that stand for the system. -/
def stream (s : ConstraintSystem K) : Bytes :=
  Bytes.ofText "ZKR1CS.r1cs.v1" ++ framed s.modulus.bytes ++ LinearCombination.word s.numWires ++
    nameStream s.publicNames ++ nameStream s.secretNames ++
    LinearCombination.word s.constraints.size ++ s.constraints.toList.flatMap Constraint.stream ++
    LinearCombination.word s.hints.size ++ s.hints.toList.flatMap Hint.stream

/-! ## Satisfaction -/

/-- Every constraint holds where wire `i` holds `z i`. -/
def Satisfies (s : ConstraintSystem K) (z : Nat → Fp K) : Prop :=
  ∀ r ∈ s.constraints.toList, r.Holds z

/-- The first row of `rs` that does not hold on a vector, counted from `index`. -/
def checkFrom (z : Array (Fp K)) (index : Nat) : List (Constraint K) → Outcome Unsatisfied Unit
  | [] => .ok ()
  | r :: rs => do
    if ← Outcome.require (r.holds? z) then checkFrom z (index + 1) rs
    else Outcome.report ⟨index, r.tag⟩

/-- Passes if every constraint holds on the vector; reports the first that does not. A vector that
is too short is a breach. -/
def check (s : ConstraintSystem K) (z : Array (Fp K)) : Outcome Unsatisfied Unit :=
  checkFrom z 0 s.constraints.toList

end ConstraintSystem

/-- A constraint system with the digest of its stream. -/
structure R1CS (K : PrimeField) extends ConstraintSystem K where
  /-- The digest that keys and witnesses carry. -/
  digest : Digest
  /-- It is the digest of the system. -/
  digest_eq : digest = .of toConstraintSystem.stream

/-- The system together with its digest. -/
def ConstraintSystem.seal {K : PrimeField} (s : ConstraintSystem K) : R1CS K :=
  { s with digest := .of s.stream, digest_eq := rfl }

end Groth16
