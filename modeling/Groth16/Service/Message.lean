import Groth16.Json.Record
import Groth16.Json.Value
import Groth16.Service.MediaType

/-!
# Requests and responses

* `Request`, `Response`: what a service is sent and what it answers.
* `Rejection`: a body that is not what was asked for.
* `Request.read`: the record in the body of a request.
-/

set_option autoImplicit false

namespace Groth16

/-- What is asked to be done with a target. -/
inductive Method where
  /-- To get it. -/
  | get
  /-- To get it, but without its body. -/
  | head
  /-- To send it something. -/
  | post
  /-- To say what can be asked. -/
  | options
  /-- Anything else. -/
  | other
  deriving DecidableEq

/-- The method of a name. -/
def Method.ofName : String → Method
  | "GET" => .get
  | "HEAD" => .head
  | "POST" => .post
  | "OPTIONS" => .options
  | _ => .other

/-- What a service is sent. -/
structure Request where
  /-- What is asked to be done. -/
  method : Method
  /-- The target: a path, perhaps with a scheme and an authority in front of it and with a query and
  a fragment behind it. -/
  target : String
  /-- The media type of the body, if it is given. -/
  contentType : Option String
  /-- The body. -/
  body : String

/-- The character may stand in a scheme. -/
def isSchemeChar (c : Char) : Bool := c.isAlphanum || "+-.~".toList.contains c

/-- The character ends a path: a query or a fragment follows. -/
def endsPath (c : Char) : Bool := c == '?' || c == '#'

/-- The path in the characters of a target. Behind a scheme and an authority it is the slash if there
is none, and it is empty if there is an authority alone. -/
def pathOf (target : List Char) : List Char :=
  let before (cs : List Char) : List Char := cs.takeWhile fun c => !endsPath c
  if target.head? = some '/' then before target
  else match target.dropWhile isSchemeChar with
    | ':' :: '/' :: '/' :: rest =>
      match before (rest.dropWhile fun c => c ≠ '/' && !endsPath c) with
      | [] => ['/']
      | path => path
    | _ => []

/-- The path of the target. -/
def Request.path (r : Request) : String := String.ofList (pathOf r.target.toList)

/-- Why a body is not read. -/
inductive Rejection where
  /-- It is not said to be JSON. -/
  | contentType
  /-- It is too large. -/
  | tooLarge
  /-- It is not JSON. -/
  | malformed
  /-- It is JSON, but not what was asked for. -/
  | mismatch
  deriving DecidableEq

/-- The status of the answer to such a body. -/
def Rejection.status : Rejection → Nat
  | .contentType => 415
  | .tooLarge => 413
  | .malformed => 400
  | .mismatch => 422

/-- The text of the rejection. -/
def Rejection.message : Rejection → String
  | .contentType => "Expected request with `Content-Type: application/json`"
  | .tooLarge => "Failed to buffer the request body: length limit exceeded"
  | .malformed => "Failed to parse the request body as JSON"
  | .mismatch => "Failed to deserialize the JSON body into the target type"

/-- The rejection of a body with a fault. -/
def Rejection.ofFault : JsonFault → Rejection
  | .malformed | .unexpectedEnd => .malformed
  | .mismatch => .mismatch

/-- What an answer holds. -/
inductive Content where
  /-- A JSON value. -/
  | json (value : JsonValue)
  /-- A text. -/
  | text (s : String)
  /-- The rejection of a body. -/
  | rejection (cause : Rejection)

/-- What a service answers. -/
structure Response where
  /-- The status. -/
  status : Nat
  /-- What it holds. -/
  content : Content

/-- The answer without its content. -/
def Response.withoutContent (r : Response) : Response := { r with content := .text "" }

/-- The record in the body of a request. What follows it in the body does not matter. -/
def Request.read (r : Request) (maxBody : Nat) (fields : List JsonField) :
    Except Rejection (JsonField.Record fields) :=
  if !r.contentType.any MediaType.isJson then .error .contentType
  else if maxBody < r.body.utf8ByteSize then .error .tooLarge
  else (JsonReader.front (JsonReader.record fields) r.body).mapError .ofFault

end Groth16
