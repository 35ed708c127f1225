import Groth16.Hash.Blake3
import Groth16.Text.Hex

/-!
# Digests

A digest is a string of 32 bytes. Artifacts carry the digest of the circuit that they were made
for.
-/

set_option autoImplicit false

namespace Groth16

/-- A string of 32 bytes. -/
structure Digest where
  /-- The bytes. -/
  bytes : Bytes
  /-- There are 32 of them. -/
  length_eq : bytes.length = 32
  deriving DecidableEq

namespace Digest

/-- The digest of a byte string. -/
def of (bs : Bytes) : Digest := ⟨Blake3.hash bs, Blake3.length_hash bs⟩

/-- The bytes as a digest, if there are 32 of them. -/
def ofBytes? (bs : Bytes) : Option Digest := if h : bs.length = 32 then some ⟨bs, h⟩ else none

/-- The bytes in hexadecimal. -/
def hex (d : Digest) : String := Hex.encode d.bytes

end Digest

end Groth16
