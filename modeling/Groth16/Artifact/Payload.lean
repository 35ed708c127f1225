import Groth16.Artifact.Decoder
import Groth16.Protocol.Keys

/-!
# Keys and proofs as bytes

A key or a proof is written part by part, in the order of its fields, without anything in between:
points in their own encoding, lists of points behind their number, a digest as its 32 bytes, the
size of the domain as a number of eight bytes.

* `Payload`: a type of values with an encoding and a reader.
-/

set_option autoImplicit false

namespace Groth16

/-- A type of values that are kept as bytes. -/
class Payload (α : Type) where
  /-- The bytes of a value. -/
  encode : α → Bytes
  /-- Reads a value. -/
  decode : Decoder α

open PointEncoding

variable {G₁ G₂ : Type} [PointEncoding G₁] [PointEncoding G₂]

instance : Payload (VerifyingKey G₁ G₂) where
  encode vk :=
    encode vk.alpha ++ encode vk.beta ++ encode vk.gamma ++ encode vk.delta ++
      encodePoints vk.instancePoints ++ vk.digest.bytes
  decode := do
    let alpha ← decodePoint
    let beta ← decodePoint
    let gamma ← decodePoint
    let delta ← decodePoint
    let instancePoints ← decodePoints
    let digest ← Decoder.digest
    return ⟨alpha, beta, gamma, delta, instancePoints, digest⟩

instance : Payload (ProvingKey G₁ G₂) where
  encode pk :=
    Payload.encode pk.vk ++ encode pk.beta ++ encode pk.delta ++ encodePoints pk.aPoints ++
      encodePoints pk.bPoints ++ encodePoints pk.bPoints₂ ++ encodePoints pk.quotientPoints ++
      encodePoints pk.privatePoints ++ Bytes.littleEndian 8 pk.domainSize.toNat
  decode := do
    let vk ← Payload.decode
    let beta ← decodePoint
    let delta ← decodePoint
    let aPoints ← decodePoints
    let bPoints ← decodePoints
    let bPoints₂ ← decodePoints
    let quotientPoints ← decodePoints
    let privatePoints ← decodePoints
    let domainSize ← Decoder.word
    return ⟨vk, beta, delta, aPoints, bPoints, bPoints₂, quotientPoints, privatePoints,
      UInt64.ofNat domainSize⟩

instance : Payload (Proof G₁ G₂) where
  encode proof := encode proof.a ++ encode proof.b ++ encode proof.c
  decode := do
    let a ← decodePoint
    let b ← decodePoint
    let c ← decodePoint
    return ⟨a, b, c⟩

end Groth16
