/-!
# Wires

A wire is a position of the vector `z = [1, public…, secret…, internal…]` that a constraint system
speaks about. A handle to a wire also says what the wire is for and which compilation made it,
because an index alone means nothing in another compilation.

* `Role`: what a wire is for.
* `Wire`: a handle to a wire.
* `Wire.one`: the wire that always holds one, shared by all compilations.
-/

set_option autoImplicit false

namespace Groth16

/-- What a wire is for. -/
inductive Role where
  /-- The wire that holds one. -/
  | constant
  /-- An input that the verifier knows. -/
  | «public»
  /-- An input that only the prover knows. -/
  | secret
  /-- A wire that is computed from others. -/
  | internal
  deriving DecidableEq, Repr

namespace Role

/-- The name of the role. -/
def name : Role → String
  | .constant => "constant"
  | .public => "public"
  | .secret => "secret"
  | .internal => "internal"

/-- The byte that stands for the role. -/
def code : Role → UInt8
  | .constant => 0
  | .public => 1
  | .secret => 2
  | .internal => 3

theorem code_injective {r s : Role} (h : r.code = s.code) : r = s := by
  cases r <;> cases s <;> first | rfl | exact absurd h (by decide)

end Role

/-- A handle to a wire. -/
structure Wire where
  /-- The position of the wire. -/
  index : Nat
  /-- What the wire is for. -/
  role : Role
  /-- The number of the compilation that allocated the wire. -/
  session : Nat
  deriving DecidableEq, Repr

/-- The wire that holds one. -/
def Wire.one : Wire := ⟨0, .constant, 0⟩

end Groth16
