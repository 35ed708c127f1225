/-!
# The size of a proving key

An estimate of the bytes of a proving key from the sizes of its circuit, before there is a key. All
numbers are words of 64 bits.

* `estimateKeyBytes`: the estimate, if no number on the way to it is too large.
-/

set_option autoImplicit false

namespace Groth16

/-- The number, if it is a word of 64 bits. -/
def asWord (n : Nat) : Option Nat := if n < UInt64.size then some n else none

/-- The bytes of a point of the first group. -/
def smallPointBytes : Nat := 32

/-- The bytes of a point of the second group. -/
def largePointBytes : Nat := 64

/-- About how many bytes the proving key of a circuit has. -/
def estimateKeyBytes (numWires numPublic domainSize : Nat) : Option Nat := do
  let all ← asWord (3 * numWires + domainSize + 4)
  let known ← asWord (min numPublic numWires + 1)
  let large ← asWord (numWires + 3)
  asWord ((all - known) * smallPointBytes + large * largePointBytes + 64)

end Groth16
