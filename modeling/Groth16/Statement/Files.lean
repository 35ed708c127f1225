import Groth16.Circuit.Witness
import Groth16.Json.Record
import Groth16.Json.Value

/-!
# Inputs and statements as texts

* `InputFile`: what a prover is given, the literals of the secret and of the public inputs by name.
* `Statement`: what a verifier is given, the name and the digest of a circuit and the literals of
  its public inputs by name.
* `Statement.ofWitness`: the statement that a witness belongs to.

Both are read from and written as JSON.
-/

set_option autoImplicit false

namespace Groth16

/-- Literals as a JSON object. -/
def literalsValue (texts : Dictionary String) : JsonValue :=
  .object (texts.entries.map fun e => (e.1, .text e.2))

/-- The literals of the inputs of a circuit. -/
structure InputFile where
  /-- The secret inputs. -/
  secret : Dictionary String
  /-- The public inputs. -/
  publics : Dictionary String

namespace InputFile

/-- The fields of the file; both may be missing. -/
def fields : List JsonField := [.textsOrEmpty "secret", .textsOrEmpty "public"]

/-- The file of a record. -/
def ofRecord : JsonField.Record fields → InputFile
  | (secret, publics, _) => ⟨secret, publics⟩

/-- Reads a file. -/
def parse (s : String) : Except JsonFault InputFile :=
  (JsonReader.whole (JsonReader.record fields) s).map ofRecord

/-- The file as a JSON value. -/
def value (f : InputFile) : JsonValue :=
  .object [("secret", literalsValue f.secret), ("public", literalsValue f.publics)]

end InputFile

/-- What is proved: a circuit and its public inputs. -/
structure Statement where
  /-- The name of the circuit. -/
  circuit : String
  /-- The digest of the compiled circuit in hexadecimal. -/
  digest : String
  /-- The literals of the public inputs. -/
  publics : Dictionary String

namespace Statement

/-- The fields of a statement. -/
def fields : List JsonField := [.text "circuit", .text "r1cs_digest", .texts "public"]

/-- The statement of a record. -/
def ofRecord : JsonField.Record fields → Statement
  | (circuit, digest, publics, _) => ⟨circuit, digest, publics⟩

/-- Reads a statement. -/
def parse (s : String) : Except JsonFault Statement :=
  (JsonReader.whole (JsonReader.record fields) s).map ofRecord

/-- The members of a statement as a JSON object. -/
def members (s : Statement) : List (String × JsonValue) :=
  [("circuit", .text s.circuit), ("r1cs_digest", .text s.digest),
    ("public", literalsValue s.publics)]

/-- The statement as a JSON value. -/
def value (s : Statement) : JsonValue := .object s.members

/-- The statement of a circuit and the values of its public inputs. -/
def ofWitness {K : PrimeField} (circuit : String) (r : R1CS K) (w : PublicWitness K) : Statement :=
  ⟨circuit, w.digest.hex, .ofList (r.publicNames.zip w.decimals)⟩

end Statement

end Groth16
