import Groth16.Field.Basic
import Groth16.Text.Hex

/-!
# Modulus descriptors

A descriptor names the prime that an artifact was made for. It is the big-endian byte string of
the prime without leading zeros, so that two descriptors are equal exactly when they name the same
number.

* `Modulus`: a byte string that does not start with zero.
* `Modulus.ofBytes`: the descriptor of any byte string, leading zeros dropped.
* `PrimeField.descriptor`: the descriptor of a field.
* `Modulus.ensure`: the check that a descriptor names a given field.
-/

set_option autoImplicit false

namespace Groth16

/-- The big-endian bytes of a number, without leading zeros. -/
structure Modulus where
  /-- The bytes, highest first. -/
  bytes : Bytes
  /-- The first byte is not zero. -/
  head_ne_zero : bytes.head? ≠ some 0
  deriving DecidableEq

namespace Modulus

/-- The descriptor of a big-endian byte string; leading zeros are dropped. -/
def ofBytes (bs : Bytes) : Modulus where
  bytes := bs.dropWhile (· == 0)
  head_ne_zero := by
    intro h
    have := List.head?_dropWhile_not (· == (0 : UInt8)) bs
    rw [h] at this
    simp at this

/-- The number of bits of the number that is named. -/
def bits (m : Modulus) : Nat :=
  match m.bytes with
  | [] => 0
  | top :: rest => rest.length * 8 + (top.toNat.log2 + 1)

/-- The bytes in hexadecimal. -/
def hex (m : Modulus) : String := Hex.encode m.bytes

/-- A line that describes the descriptor to a person. -/
def describe (m : Modulus) : String := s!"FieldModulus(0x{m.hex}, {m.bits} bits)"

end Modulus

/-- The descriptor of the field. -/
def PrimeField.descriptor (K : PrimeField) : Modulus :=
  Modulus.ofBytes (Bytes.bigEndian K.byteLength K.modulus)

/-- A descriptor that names another field than the one asked for. -/
structure ModulusMismatch where
  /-- The field asked for. -/
  expected : Modulus
  /-- The field that was named. -/
  got : Modulus
  deriving DecidableEq

/-- The text of the error. -/
def ModulusMismatch.message (e : ModulusMismatch) : String :=
  s!"field modulus mismatch: expected 0x{e.expected.hex}, got 0x{e.got.hex}"

namespace Modulus

/-- The descriptor names the field `K`. -/
def isFor (m : Modulus) (K : PrimeField) : Bool := m == K.descriptor

/-- Passes exactly if the descriptor names the field `K`. -/
def ensure (m : Modulus) (K : PrimeField) : Except ModulusMismatch Unit :=
  if m.isFor K then .ok () else .error ⟨K.descriptor, m⟩

theorem isFor_iff (m : Modulus) (K : PrimeField) : m.isFor K = true ↔ m = K.descriptor := by
  simp [isFor]

@[simp] theorem ensure_descriptor (K : PrimeField) : K.descriptor.ensure K = .ok () := by
  simp [ensure, isFor]

end Modulus

end Groth16
