import Groth16.Circuit.Assignment
import Groth16.Circuit.ConstraintSystem

/-!
# Witnesses

A witness is a full vector of wires for one constraint system. It is computed from values of the
inputs by replaying the hints, and then checked against every constraint.

* `Witness`: the vector, with the digest and the field of its system.
* `PublicWitness`: the values of the public inputs, with the same marks.
* `R1CS.assign`: the witness of an assignment.
* `R1CS.publicWitness`: the public part, from the public inputs alone.
-/

set_option autoImplicit false

namespace Groth16

variable {K : PrimeField}

/-- The values of the public inputs of a system, in the order of its wires. -/
structure PublicWitness (K : PrimeField) where
  /-- The values. -/
  values : List (Fp K)
  /-- The digest of the system. -/
  digest : Digest
  /-- The field of the system. -/
  modulus : Modulus
  deriving DecidableEq

/-- A full vector of wires for a system. -/
structure Witness (K : PrimeField) where
  /-- The wires, the one-wire first. -/
  values : Array (Fp K)
  /-- The number of public inputs. -/
  numPublic : Nat
  /-- The digest of the system. -/
  digest : Digest
  /-- The field of the system. -/
  modulus : Modulus

/-- The values in decimal, in wire order. -/
def PublicWitness.decimals (w : PublicWitness K) : List String := w.values.map Fp.toDecimal

namespace Witness

/-- The public part of the witness. -/
def publicPart (w : Witness K) : PublicWitness K :=
  ⟨(w.values.toList.drop 1).take w.numPublic, w.digest, w.modulus⟩

/-- A line that describes the witness without its values. -/
def describe (w : Witness K) : String :=
  s!"Witness \x7b len: {w.values.size}, num_public: {w.numPublic}, " ++
    "r1cs_digest: \"" ++ w.digest.hex ++ "\" \x7d"

end Witness

namespace ConstraintSystem

/-- The vector before the hints are replayed: one, the inputs, and zeros. -/
def seed (s : ConstraintSystem K) (secret publics : Assignment K) : Array (Fp K) :=
  let inputs := 1 :: (publics.valuesOf s.publicNames ++ secret.valuesOf s.secretNames)
  (inputs ++ List.replicate (s.numWires - inputs.length) 0).toArray

/-- The row that is reported if a hint has no value. -/
def reportOf (s : ConstraintSystem K) (h : Hint K) : Outcome Unsatisfied Unsatisfied := do
  let r ← Outcome.require s.constraints[h.row]?
  return ⟨h.row, r.tag⟩

/-- Fills the wire of one hint. A hint that reads or writes past the end of the vector is a
breach. -/
def replayHint (s : ConstraintSystem K) (z : Array (Fp K)) (h : Hint K) :
    Outcome Unsatisfied (Array (Fp K)) := do
  if !h.recipe.readable z then Outcome.breach
  match h.recipe.solve? z with
  | none => Outcome.report (← s.reportOf h)
  | some value =>
    if h.output < z.size then return z.setIfInBounds h.output value else Outcome.breach

/-- Fills the wires of hints in order. -/
def replay (s : ConstraintSystem K) (z : Array (Fp K)) :
    List (Hint K) → Outcome Unsatisfied (Array (Fp K))
  | [] => return z
  | h :: hs => do s.replay (← s.replayHint z h) hs

/-- Fills all internal wires and checks all constraints. -/
def solve (s : ConstraintSystem K) (z : Array (Fp K)) : Outcome Unsatisfied (Array (Fp K)) := do
  let z ← s.replay z s.hints.toList
  s.check z
  return z

end ConstraintSystem

namespace R1CS

/-- The public part of a witness, from the public inputs alone. -/
def publicWitness (r : R1CS K) (publics : Assignment K) :
    Except WitnessError (PublicWitness K) := do
  (r.modulus.ensure K).mapError .field
  publics.checkNames r.publicNames .public r.secretNames .secret
  return ⟨publics.valuesOf r.publicNames, r.digest, r.modulus⟩

/-- The checks of the names that come before anything is computed. -/
def checkInputs (r : R1CS K) (secret publics : Assignment K) : Except WitnessError Unit := do
  (r.modulus.ensure K).mapError .field
  publics.checkNames r.publicNames .public r.secretNames .secret
  secret.checkNames r.secretNames .secret r.publicNames .public

/-- The witness of values for all inputs. -/
def assign (r : R1CS K) (secret publics : Assignment K) : Outcome WitnessError (Witness K) := do
  Outcome.ofExcept (r.checkInputs secret publics)
  let z ← (r.solve (r.seed secret publics)).mapError .unsatisfied
  return ⟨z, r.numPublic, r.digest, r.modulus⟩

end R1CS

end Groth16
