/-!
# Media types

The media type of a body says if it is JSON: the type is `application` and the subtype is `json`, in
letters of either case; a suffix behind a plus sign may take the place of the subtype. Parameters
have to be well formed, but do not matter. Blanks stand only in front of a parameter, and behind a
value with quotes.

* `MediaType.isJson`: the text names such a type.
-/

set_option autoImplicit false

namespace Groth16.MediaType

/-- The character may stand in a name. -/
def isToken (c : Char) : Bool := c.isAlphanum || "!#$%&'*+-.^_`|~".toList.contains c

/-- The character may stand in a header. -/
def isVisible (c : Char) : Bool := (0x20 ≤ c.toNat && c.toNat < 0x7F) || c == '\t'

/-- Where a reader of parameters stands. -/
inductive Place where
  /-- Before the name of a parameter. -/
  | start
  /-- In the name. -/
  | name
  /-- Before the value. -/
  | equals
  /-- In a value without quotes. -/
  | bare
  /-- Behind an opening quote. -/
  | quote
  /-- In a value with quotes. -/
  | quoted
  /-- Behind a closing quote. -/
  | closed
  deriving DecidableEq

/-- The place behind a character. -/
def Place.next? (p : Place) (c : Char) : Option Place :=
  let text := 0x20 ≤ c.toNat && c.toNat ≠ 0x7F
  match p with
  | .start => if c = ' ' then some .start else if isToken c then some .name else none
  | .name => if isToken c then some .name else if c = '=' then some .equals else none
  | .equals => if c = '"' then some .quote else if isToken c then some .bare else none
  | .bare => if isToken c then some .bare else if c = ';' then some .start else none
  | .quote => if text then some .quoted else none
  | .quoted => if c = '"' then some .closed else if text then some .quoted else none
  | .closed => if c = ';' then some .start else if c = ' ' then some .closed else none

/-- The parameters may end here. -/
def Place.mayEnd : Place → Bool
  | .start | .equals | .bare | .closed => true
  | .name | .quote | .quoted => false

/-- The characters are well-formed parameters. -/
def areParameters (cs : List Char) : Bool :=
  (cs.foldlM Place.next? Place.start).any Place.mayEnd

/-- The subtype without its suffix, and the suffix: what stands before and behind the last plus
sign. A plus sign in front does not count. -/
def splitSuffix (cs : List Char) : List Char × Option (List Char) :=
  let suffix := (cs.reverse.takeWhile (· ≠ '+')).reverse
  let before := cs.take (cs.length - suffix.length - 1)
  if before.isEmpty then (cs, none) else (before, some suffix)

/-- The subtype is JSON, by itself or by its suffix. -/
def isJsonSubtype (cs : List Char) : Bool :=
  let json := "json".toList
  let (subtype, suffix) := splitSuffix (cs.map Char.toLower)
  subtype == json || suffix == some json

/-- The text names JSON. -/
def isJson (s : String) : Bool :=
  let cs := s.toList
  let top := cs.takeWhile isToken
  match cs.dropWhile isToken with
  | '/' :: rest =>
    let subtype := rest.takeWhile isToken
    let parameters := match rest.dropWhile isToken with
      | [] => true
      | ';' :: ps => areParameters ps
      | _ => false
    cs.all isVisible && top.map Char.toLower == "application".toList && isJsonSubtype subtype &&
      parameters
  | _ => false

end Groth16.MediaType
