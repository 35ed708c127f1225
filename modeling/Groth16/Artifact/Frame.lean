import Groth16.Artifact.Payload

/-!
# Artifacts

An artifact is a payload behind a header of eleven bytes: eight that name the format, two for the
version, highest first, and one for the kind of the payload. Nothing may follow the payload.

* `ArtifactKind`: the kinds and their codes.
* `ArtifactError`: all that can be wrong with the bytes of an artifact.
* `Artifact.encode`, `Artifact.decode`: the bytes of an artifact and their reader.
-/

set_option autoImplicit false

namespace Groth16

/-- What an artifact holds. -/
inductive ArtifactKind where
  /-- A proving key. -/
  | provingKey
  /-- A verifying key. -/
  | verifyingKey
  /-- A proof. -/
  | proof
  deriving DecidableEq

/-- The code of the kind in the header. -/
def ArtifactKind.code : ArtifactKind → UInt8
  | .provingKey => 1
  | .verifyingKey => 2
  | .proof => 3

/-- The name of the kind. -/
def ArtifactKind.name : ArtifactKind → String
  | .provingKey => "proving key"
  | .verifyingKey => "verifying key"
  | .proof => "proof"

/-- Why bytes are not an artifact. -/
inductive ArtifactError where
  /-- There are fewer bytes than a header has. -/
  | truncated
  /-- The format is another one. -/
  | badMagic
  /-- The version is not known. -/
  | version (found : Nat)
  /-- The artifact holds something else. -/
  | kind (expected : ArtifactKind) (found : UInt8)
  /-- The payload cannot be read. -/
  | payload (cause : DecodeError)
  /-- Bytes follow the payload. -/
  | trailingBytes (count : Nat)
  deriving DecidableEq

namespace Artifact

/-- The text that names the format. -/
def magicText : String := "ZKR1CSv1"

/-- The bytes that name the format. -/
def magic : Bytes := Bytes.ofText magicText

/-- The version of the format. -/
def version : Nat := 1

/-- The number of bytes of a header. -/
def headerLength : Nat := 11

/-- The header of an artifact of a kind. -/
def header (kind : ArtifactKind) : Bytes := magic ++ Bytes.bigEndian 2 version ++ [kind.code]

end Artifact

/-- The text of the error. -/
def ArtifactError.message : ArtifactError → String
  | .truncated => "truncated artifact header"
  | .badMagic => "bad artifact magic (expected \"" ++ Artifact.magicText ++ "\")"
  | .version found => s!"unsupported artifact version {found}"
  | .kind expected found => s!"expected a {expected.name} artifact, found kind byte {found.toNat}"
  | .payload cause => s!"serialization: {cause.message}"
  | .trailingBytes count => s!"{count} trailing bytes after artifact payload"

namespace Artifact

/-- The bytes of an artifact. -/
def encode {α : Type} [Payload α] (kind : ArtifactKind) (value : α) : Bytes :=
  header kind ++ Payload.encode value

/-- Checks the header of an artifact that should be of a kind; the bytes behind it. -/
def openHeader (kind : ArtifactKind) (bs : Bytes) : Except ArtifactError Bytes := do
  if bs.length < headerLength then throw .truncated
  if bs.take 8 ≠ magic then throw .badMagic
  let found := Bytes.ofBigEndian ((bs.drop 8).take 2)
  if found ≠ version then throw (.version found)
  let code := (bs.drop 10).headD 0
  if code ≠ kind.code then throw (.kind kind code)
  return bs.drop headerLength

/-- Reads a payload that fills a byte string. -/
def decodePayload {α : Type} [Payload α] (bs : Bytes) : Outcome ArtifactError α := do
  let (value, rest) ← ((Payload.decode : Decoder α).run bs).mapError ArtifactError.payload
  if rest.isEmpty then return value else Outcome.report (.trailingBytes rest.length)

/-- Reads an artifact that should be of a kind. -/
def decode {α : Type} [Payload α] (kind : ArtifactKind) (bs : Bytes) : Outcome ArtifactError α := do
  decodePayload (← Outcome.ofExcept (openHeader kind bs))

end Artifact

end Groth16
