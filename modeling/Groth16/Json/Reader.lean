import Groth16.Data.Dictionary
import Groth16.Json.Number
import Groth16.Text.Hex

/-!
# Reading JSON

Readers take what they want from the front of a text and report the first fault that they meet,
from left to right. A value of the wrong type is read to its end if it is a number or a text, so
that a fault inside of it comes before the wrong type.

* `JsonFault`: the three kinds of faults.
* `JsonReader`: a reader.
* `text`, `dictionary`: readers of a text and of an object of texts.
* `skip`: passes over any value, however deeply nested.
* `whole`: a value and nothing behind it.
-/

set_option autoImplicit false

namespace Groth16

/-- What is wrong with a text. -/
inductive JsonFault where
  /-- The text is not JSON. -/
  | malformed
  /-- The text ends too soon. -/
  | unexpectedEnd
  /-- The text is JSON, but not what was asked for. -/
  | mismatch
  deriving DecidableEq

/-- A reader of the front of a text. -/
abbrev JsonReader (α : Type) := StateT (List Char) (Except JsonFault) α

namespace JsonReader

variable {α : Type}

/-- Reports a fault. -/
def fail (fault : JsonFault) : JsonReader α := throw fault

/-! ## Characters -/

/-- The characters that may stand between tokens. -/
def isGap (c : Char) : Bool := c == ' ' || c == '\n' || c == '\t' || c == '\r'

/-- The first character behind a gap, which is not taken. -/
def peek : JsonReader (Option Char) := fun cs =>
  let cs := cs.dropWhile isGap
  .ok (cs.head?, cs)

/-- Takes one character. -/
def advance : JsonReader Unit := modify (·.drop 1)

/-- Takes a character behind a gap that has to be there. -/
def expect (c : Char) : JsonReader Unit := do
  match ← peek with
  | none => fail .unexpectedEnd
  | some d => if d = c then advance else fail .malformed

/-- Takes characters that have to be there. -/
def word : List Char → JsonReader Unit
  | [] => return
  | c :: cs => do
    match (← get).head? with
    | none => fail .unexpectedEnd
    | some d => if d = c then do advance; word cs else fail .malformed

/-! ## Texts -/

/-- The number of four hexadecimal digits. They are asked for as four bytes. -/
def fourDigits (cs : List Char) : Except JsonFault Nat :=
  if (String.ofList (cs.take 4)).utf8ByteSize < 4 then .error .unexpectedEnd
  else
    match (cs.take 4).mapM Hex.digit? with
    | some ds => .ok (ds.foldl (fun n d => 16 * n + d) 0)
    | none => .error .malformed

/-- The character of an escape with a single letter. -/
def shortEscape? (c : Char) : Option Char :=
  match c with
  | '"' => some '"'
  | '\\' => some '\\'
  | '/' => some '/'
  | 'b' => some '\x08'
  | 'f' => some '\x0c'
  | 'n' => some '\n'
  | 'r' => some '\r'
  | 't' => some '\t'
  | _ => none

/-- Is the first half of a pair of code units. -/
def isHighHalf (n : Nat) : Bool := 0xD800 ≤ n && n ≤ 0xDBFF

/-- Is the second half of a pair of code units. -/
def isLowHalf (n : Nat) : Bool := 0xDC00 ≤ n && n ≤ 0xDFFF

/-- The character of a numeric escape behind its letter, and how many characters it takes. -/
def numericEscape (cs : List Char) : Except JsonFault (Char × Nat) := do
  let n ← fourDigits cs
  if isLowHalf n then throw .malformed
  else if !isHighHalf n then return (Char.ofNat n, 4)
  else
    match cs.drop 4 with
    | [] | ['\\'] => throw .unexpectedEnd
    | '\\' :: 'u' :: rest => do
      let m ← fourDigits rest
      if isLowHalf m then return (Char.ofNat (0x10000 + (n - 0xD800) * 0x400 + (m - 0xDC00)), 10)
      else throw .malformed
    | _ => throw .malformed

/-- The character of an escape behind its backslash, and how many characters it takes. -/
def escape : List Char → Except JsonFault (Char × Nat)
  | [] => .error .unexpectedEnd
  | 'u' :: cs => do
    let (c, n) ← numericEscape cs
    return (c, n + 1)
  | c :: _ => match shortEscape? c with
    | some d => .ok (d, 1)
    | none => .error .malformed

/-- Passes over an escape; a numeric one need not stand for a character. -/
def looseEscape : List Char → Except JsonFault (Char × Nat)
  | 'u' :: cs => do
    discard (fourDigits cs)
    return ('u', 5)
  | cs => escape cs

/-- The characters up to the closing quote, behind those that were read, and the rest. -/
def quoted (escape : List Char → Except JsonFault (Char × Nat)) (done : List Char) :
    List Char → Except JsonFault (String × List Char)
  | [] => .error .unexpectedEnd
  | '"' :: rest => .ok (String.ofList done.reverse, rest)
  | '\\' :: rest =>
    match escape rest with
    | .ok (c, n) => quoted escape (c :: done) (rest.drop n)
    | .error e => .error e
  | c :: rest => if c.toNat < 0x20 then .error .malformed else quoted escape (c :: done) rest
termination_by cs => cs.length
decreasing_by all_goals simp only [List.length_drop, List.length_cons]; omega

/-- A text behind its opening quote. -/
def quotedText : JsonReader String := quoted escape []

/-- Passes over a text behind its opening quote. -/
def skipText : JsonReader Unit := discard (quoted looseEscape [] : JsonReader String)

/-! ## Numbers -/

/-- The value of a decimal digit. -/
def decimal? (c : Char) : Option Nat := if c.isDigit then some (c.toNat - 0x30) else none

/-- Takes all digits at the front. -/
def digits : JsonReader (List Nat) := fun cs =>
  .ok ((cs.takeWhile Char.isDigit).filterMap decimal?, cs.dropWhile Char.isDigit)

/-- Takes all digits at the front, of which there has to be one. `atEnd` is the fault if the text
ends. -/
def someDigits (atEnd : JsonFault) : JsonReader (List Nat) := do
  match (← get).head? with
  | none => fail atEnd
  | some c => if c.isDigit then digits else fail .malformed

/-- Takes one of two characters, if it is there. -/
def takeEither (c d : Char) : JsonReader (Option Char) := do
  match (← get).head? with
  | some e => if e = c ∨ e = d then do advance; return some e else return none
  | none => return none

/-- A number without its sign. A leading zero stands alone. -/
def number (atEnd : JsonFault) : JsonReader JsonNumber := do
  let whole ← someDigits atEnd
  if whole.head? = some 0 ∧ 1 < whole.length then fail .malformed
  let fraction ← if (← takeEither '.' '.').isSome then someDigits atEnd else pure []
  if (← takeEither 'e' 'E').isSome then
    let sign ← takeEither '+' '-'
    return ⟨whole, fraction, sign == some '-', ← someDigits atEnd⟩
  else return ⟨whole, fraction, false, []⟩

/-! ## Values of any type -/

/-- Passes over a value of the wrong type, but not over what lies in a list or an object. -/
def passOver (start : Char) : JsonReader Unit :=
  match start with
  | 'n' => word "null".toList
  | 't' => word "true".toList
  | 'f' => word "false".toList
  | '"' => do advance; discard quotedText
  | '[' | '\x7b' => return
  | c => do
    if c ≠ '-' ∧ !c.isDigit then fail .malformed
    if c = '-' then advance
    if (← number .unexpectedEnd).tooLarge then fail .malformed

/-- Reports the wrong type for a value that starts with a character, or a fault inside of it. -/
def wrongType (start : Char) : JsonReader α := do
  passOver start
  fail .mismatch

/-- An open list or object. -/
inductive Nest where
  /-- A list. -/
  | list
  /-- An object. -/
  | object
  deriving DecidableEq

/-- The character that closes it. -/
def Nest.closing : Nest → Char
  | .list => ']'
  | .object => '\x7d'

/-- Where a reader that passes over a value stands. -/
inductive Place where
  /-- Before a value. -/
  | value
  /-- Behind an opening bracket. -/
  | opened
  /-- Behind a value. -/
  | closed
  deriving DecidableEq

/-- Passes over a value that is no list and no object. -/
def skipScalar (start : Char) : JsonReader Unit := do
  match start with
  | 'n' => word "null".toList
  | 't' => word "true".toList
  | 'f' => word "false".toList
  | '"' => do advance; skipText
  | c =>
    if c = '-' ∨ c.isDigit then
      if c = '-' then advance
      discard (number .malformed)
    else fail .malformed

/-- Passes over the name of a member and its colon. -/
def skipName : JsonReader Unit := do
  expect '"'
  skipText
  expect ':'

/-- Passes over the rest of a value that lies in open lists and objects, innermost first, in a
limited number of steps. -/
def skipFrom : Nat → Place → List Nest → JsonReader Unit
  | 0, _, _ => fail .malformed
  | _ + 1, .closed, [] => return
  | _ + 1, .opened, [] => return
  | steps + 1, .value, nests => do
    match ← peek with
    | none => fail .unexpectedEnd
    | some '[' => do advance; skipFrom steps .opened (.list :: nests)
    | some '\x7b' => do advance; skipFrom steps .opened (.object :: nests)
    | some c => do skipScalar c; skipFrom steps .closed nests
  | steps + 1, place, nest :: nests => do
    match ← peek with
    | none => fail .unexpectedEnd
    | some c =>
      if c = nest.closing then do advance; skipFrom steps .closed nests
      else do
        if place = .closed then expect ','
        if nest = .object then skipName
        skipFrom steps .value (nest :: nests)

/-- Passes over a value. -/
def skip : JsonReader Unit := do
  let cs ← get
  skipFrom (2 * cs.length + 2) .value []

/-! ## Texts and objects of texts -/

/-- A text. -/
def text : JsonReader String := do
  match ← peek with
  | none => fail .unexpectedEnd
  | some '"' => do advance; quotedText
  | some c => wrongType c

/-- The name of the next member of an object, or none and the closing bracket. -/
def nextName (first : Bool) : JsonReader (Option String) := do
  match ← peek with
  | none => fail .unexpectedEnd
  | some '\x7d' => do advance; return none
  | some c =>
    if !first then
      if c ≠ ',' then fail .malformed
      advance
    match ← peek with
    | none => fail .unexpectedEnd
    | some '"' => do
      advance
      return some (← quotedText)
    | some _ => fail .malformed

/-- The members of an object that are left, in a limited number of steps; of two with one name the
later counts. -/
def textMembers : Nat → Bool → Dictionary String → JsonReader (Dictionary String)
  | 0, _, _ => fail .malformed
  | steps + 1, first, d => do
    match ← nextName first with
    | none => return d
    | some name => do
      expect ':'
      let value ← text
      textMembers steps false (d.insert name value)

/-- An object of texts. -/
def dictionary : JsonReader (Dictionary String) := do
  match ← peek with
  | none => fail .unexpectedEnd
  | some '\x7b' => do
    advance
    textMembers ((← get).length + 1) true Dictionary.empty
  | some c => wrongType c

/-! ## Whole texts -/

/-- The value at the front of a text. -/
def front (reader : JsonReader α) (s : String) : Except JsonFault α := reader.run' s.toList

/-- The value of a text that holds nothing else. -/
def whole (reader : JsonReader α) (s : String) : Except JsonFault α :=
  front (do
    let a ← reader
    match ← peek with
    | none => return a
    | some _ => fail .malformed) s

end JsonReader

end Groth16
