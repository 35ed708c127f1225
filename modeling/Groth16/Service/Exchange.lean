import Groth16.Service.Message

/-!
# Requests and responses as text

A request starts with a line of a method, a target and a version, and lines of headers up to an
empty one; the body follows. A response is written in the same way.

* `RequestHead.parse?`: the lines in front of a body.
* `Response.render`: the text of a response.
-/

set_option autoImplicit false

namespace Groth16

/-- What stands in front of the body of a request. -/
structure RequestHead where
  /-- The name of the method. -/
  method : String
  /-- The target. -/
  target : String
  /-- The headers, their names in lower case. -/
  headers : List (String × String)

namespace RequestHead

/-- The character may stand between the parts of a header. -/
def isGap (c : Char) : Bool := c == ' ' || c == '\t'

/-- A text without gaps at its ends. -/
def strip (s : String) : String :=
  String.ofList ((s.toList.dropWhile isGap).reverse.dropWhile isGap).reverse

/-- A header; none if there is no colon. -/
def parseHeader? (line : String) : Option (String × String) :=
  match line.splitOn ":" with
  | [] | [_] => none
  | name :: value => some ((strip name).toLower, strip (":".intercalate value))

/-- The head of a request, from its lines without their ends. -/
def parse? : List String → Option RequestHead
  | [] => none
  | first :: rest =>
    match (first.splitOn " ").filter (· ≠ "") with
    | method :: target :: _ => some ⟨method, target, rest.filterMap parseHeader?⟩
    | _ => none

/-- The value of a header. -/
def header? (h : RequestHead) (name : String) : Option String := h.headers.lookup name

/-- The number of bytes of the body. -/
def bodyLength (h : RequestHead) : Nat := ((h.header? "content-length").bind String.toNat?).getD 0

/-- The request with a body. -/
def withBody (h : RequestHead) (body : String) : Request :=
  ⟨.ofName h.method, h.target, h.header? "content-type", body⟩

end RequestHead

/-- What a status means. -/
def statusText : Nat → String
  | 200 => "OK"
  | 400 => "Bad Request"
  | 404 => "Not Found"
  | 405 => "Method Not Allowed"
  | 409 => "Conflict"
  | 413 => "Payload Too Large"
  | 415 => "Unsupported Media Type"
  | 422 => "Unprocessable Entity"
  | _ => "Internal Server Error"

namespace Content

/-- The media type. -/
def mediaType : Content → String
  | .json _ => "application/json"
  | .text _ | .rejection _ => "text/plain; charset=utf-8"

/-- The text. -/
def body : Content → String
  | .json value => value.compact
  | .text s => s
  | .rejection cause => cause.message

end Content

/-- The text of a response. -/
def Response.render (r : Response) : String :=
  let body := r.content.body
  "\r\n".intercalate
    [s!"HTTP/1.1 {r.status} {statusText r.status}", s!"content-type: {r.content.mediaType}",
      s!"content-length: {body.utf8ByteSize}", "access-control-allow-origin: *", "", body]

end Groth16
