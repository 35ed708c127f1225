import Groth16.Data.Bytes
import Groth16.Hash.Digest
import Groth16.Outcome

/-!
# Canonical encodings

Values are written as bytes without gaps, and read back from the front of a byte string.

* `Decoder`: reads a value from the front of a byte string.
* `Decoder.take`, `Decoder.word`, `Decoder.digest`: readers of bytes, of a number and of a digest.
* `PointEncoding`: a group whose points have an encoding.
* `PointEncoding.encodePoints`, `PointEncoding.decodePoints`: a count of eight bytes and the points.
-/

set_option autoImplicit false

namespace Groth16

/-- Why bytes are not an encoding. -/
inductive DecodeError where
  /-- The string is too short. -/
  | unexpectedEnd
  /-- A point has flags that exclude each other. -/
  | unexpectedFlags
  /-- A coordinate is not reduced, or the point is not one of the group. -/
  | invalidData
  deriving DecidableEq

/-- The text of the error. -/
def DecodeError.message : DecodeError → String
  | .unexpectedEnd =>
    "I/O error: Custom \x7b kind: UnexpectedEof, error: \"failed to fill whole buffer\" \x7d"
  | .unexpectedFlags => "the call expects empty flags"
  | .invalidData => "the input buffer contained invalid data"

/-- Reads a value from the front of a byte string. -/
abbrev Decoder (α : Type) := StateT Bytes (Outcome DecodeError) α

namespace Decoder

/-- Fails with an error. -/
def fail {α : Type} (e : DecodeError) : Decoder α := throw (.reported e)

/-- The first `n` bytes. -/
def take (n : Nat) : Decoder Bytes := fun bs =>
  if bs.length < n then .report .unexpectedEnd else .ok (bs.take n, bs.drop n)

/-- A number of eight bytes, lowest first. -/
def word : Decoder Nat := Bytes.ofLittleEndian <$> take 8

/-- A digest. Too few bytes are a breach. -/
def digest : Decoder Digest := fun bs =>
  match Digest.ofBytes? (bs.take 32) with
  | some d => .ok (d, bs.drop 32)
  | none => .breach

/-- Passes if the condition holds, else the data is invalid. -/
def valid (ok : Bool) : Decoder Unit := if ok then return else fail .invalidData

/-- As many items as said. -/
def items {α : Type} (item : Decoder α) : Nat → Decoder (List α)
  | 0 => return []
  | n + 1 => do
    let a ← item
    return a :: (← items item n)

end Decoder

/-- A group whose points have an encoding. -/
class PointEncoding (G : Type) where
  /-- The bytes of a point. -/
  encode : G → Bytes
  /-- Reads a point of the curve. -/
  decode : Decoder G
  /-- The point of the curve is one of the group. -/
  inGroup : G → Bool

namespace PointEncoding

variable {G : Type} [PointEncoding G]

/-- Reads a point of the group. -/
def decodePoint : Decoder G := do
  let p ← decode
  Decoder.valid (inGroup p)
  return p

/-- The bytes of a list of points: their number, then the points. -/
def encodePoints (ps : List G) : Bytes := Bytes.littleEndian 8 ps.length ++ ps.flatMap encode

/-- Reads a list of points of the group. All are read before the first is checked. -/
def decodePoints : Decoder (List G) := do
  let n ← Decoder.word
  let ps ← Decoder.items decode n
  Decoder.valid (ps.all inGroup)
  return ps

end PointEncoding

end Groth16
