import Groth16.Json.Reader

/-!
# JSON records

A record is an object with named fields of known types, or the list of their values in order. The
fields of an object may stand in any order; those with other names are passed over, and a field that
is given twice is not what was asked for. Fields with a default may be missing.

* `JsonField`: a name, a type and perhaps a default.
* `JsonField.Record`: the values of a list of fields.
* `JsonReader.record`: the reader of a record.
-/

set_option autoImplicit false

namespace Groth16

/-- The type of a field. -/
inductive JsonType where
  /-- A text. -/
  | text
  /-- An object of texts. -/
  | texts
  deriving DecidableEq

/-- The values of the type. -/
def JsonType.Value : JsonType → Type
  | .text => String
  | .texts => Dictionary String

/-- A field of a record. -/
structure JsonField where
  /-- Its name. -/
  name : String
  /-- Its type. -/
  type : JsonType
  /-- Its value if it is missing; none if it has to be there. -/
  default : Option type.Value

namespace JsonField

/-- A field for a text. -/
def text (name : String) : JsonField := ⟨name, .text, none⟩

/-- A field for an object of texts. -/
def texts (name : String) : JsonField := ⟨name, .texts, none⟩

/-- A field for an object of texts, which is empty if it is missing. -/
def textsOrEmpty (name : String) : JsonField :=
  ⟨name, .texts, some (Dictionary.empty : Dictionary String)⟩

/-- The values of all fields. -/
def Record : List JsonField → Type
  | [] => Unit
  | f :: fs => f.type.Value × Record fs

/-- The values of the fields that were given so far. -/
def Given : List JsonField → Type
  | [] => Unit
  | f :: fs => Option f.type.Value × Given fs

/-- No field was given. -/
def nothing : (fs : List JsonField) → Given fs
  | [] => ()
  | _ :: fs => (none, nothing fs)

/-- The record, with defaults for what is missing; none if a field without a default is missing. -/
def complete : (fs : List JsonField) → Given fs → Option (Record fs)
  | [], _ => some ()
  | f :: fs, (value, rest) => do
    let v ← value <|> f.default
    return (v, ← complete fs rest)

end JsonField

namespace JsonReader

open JsonField

/-- A value of a type. -/
def value : (t : JsonType) → JsonReader t.Value
  | .text => text
  | .texts => dictionary

/-- The value of the field of a name, behind its colon; none if there is no such field. -/
def member (name : String) : (fs : List JsonField) → Given fs → JsonReader (Option (Given fs))
  | [], _ => return none
  | f :: fs, (old, rest) => do
    if f.name = name then
      if old.isSome then fail .mismatch
      else do
        expect ':'
        return some (some (← value f.type), rest)
    else
      match ← member name fs rest with
      | some rest => return some (old, rest)
      | none => return none

/-- The members of an object that are left, in a limited number of steps. -/
def members (fs : List JsonField) : Nat → Bool → Given fs → JsonReader (Given fs)
  | 0, _, _ => fail .malformed
  | steps + 1, first, given => do
    match ← nextName first with
    | none => return given
    | some name => do
      match ← member name fs given with
      | some given => members fs steps false given
      | none => do
        expect ':'
        skip
        members fs steps false given

/-- There is another item in a list whose closing bracket is not taken. -/
def nextItem (first : Bool) : JsonReader Bool := do
  match ← peek with
  | none => fail .unexpectedEnd
  | some ']' => return false
  | some c =>
    if first then return true
    else if c ≠ ',' then fail .malformed
    else do
      advance
      match ← peek with
      | none => fail .unexpectedEnd
      | some ']' => fail .malformed
      | some _ => return true

/-- The values of fields, as the items of a list whose closing bracket is not taken. -/
def itemsOf : (fs : List JsonField) → Bool → JsonReader (Record fs)
  | [], _ => return ()
  | f :: fs, first => do
    if ← nextItem first then
      let v ← value f.type
      return (v, ← itemsOf fs false)
    else
      match f.default with
      | some v => return (v, ← itemsOf fs first)
      | none => fail .mismatch

/-- A record. -/
def record (fs : List JsonField) : JsonReader (Record fs) := do
  match ← peek with
  | none => fail .unexpectedEnd
  | some '[' => do
    advance
    let r ← itemsOf fs true
    expect ']'
    return r
  | some '\x7b' => do
    advance
    match complete fs (← members fs ((← get).length + 1) true (nothing fs)) with
    | some r => return r
    | none => fail .mismatch
  | some c => wrongType c

end JsonReader

end Groth16
