import Groth16.Text.Hex

/-!
# Socket addresses

The address of a service: four numbers with points between them, or up to eight groups of
hexadecimal digits with colons between them in brackets, and the number of a channel behind a
colon. Two colons stand for groups that are zero, and the last two groups may be written as four
numbers.

* `SocketAddress`: an address with a channel.
* `SocketAddress.parse?`: the address of a text.
* `HostAddress.isOwn`: every machine can listen on the address.
-/

set_option autoImplicit false

namespace Groth16

/-- The address of a machine. -/
inductive HostAddress where
  /-- Four bytes. -/
  | v4 (bytes : List Nat)
  /-- Eight groups of sixteen bits and the number of a zone. -/
  | v6 (groups : List Nat) (zone : Nat)
  deriving DecidableEq

/-- Every machine has the four bytes, whatever it is connected to: they stand for the machine itself,
for all of its addresses or for a group of machines. -/
def isOwnV4 (bytes : List Nat) : Bool :=
  match bytes with
  | [127, _, _, _] | [0, 0, 0, 0] | [255, 255, 255, 255] => true
  | first :: _ => 224 ≤ first && first < 240
  | [] => false

/-- Every machine has the address, whatever it is connected to. -/
def HostAddress.isOwn : HostAddress → Bool
  | .v4 bytes => isOwnV4 bytes
  | .v6 groups _ =>
    match groups with
    | [0, 0, 0, 0, 0, 0, 0, last] => last < 2
    | [0, 0, 0, 0, 0, 0xFFFF, a, b] => isOwnV4 [a / 256, a % 256, b / 256, b % 256]
    | first :: _ => 0xFF00 ≤ first
    | [] => false

/-- An address with a channel. -/
structure SocketAddress where
  /-- The machine. -/
  host : HostAddress
  /-- The number of the channel. -/
  channel : Nat
  deriving DecidableEq

namespace SocketAddress

/-- Takes a character. -/
def takeChar? (c : Char) : List Char → Option (List Char)
  | d :: cs => if d = c then some cs else none
  | [] => none

/-- The value of a digit in a base of at most 16. -/
def digit? (base : Nat) (c : Char) : Option Nat := (Hex.digit? c).filter (· < base)

/-- Takes a number below a limit, of all digits at the front. `most` limits their count, if there is
a limit, and `padded` allows a zero in front of other digits. -/
def takeNumber? (base limit : Nat) (most : Option Nat) (padded : Bool) (cs : List Char) :
    Option (Nat × List Char) :=
  let isDigit (c : Char) : Bool := (digit? base c).isSome
  let ds := (cs.takeWhile isDigit).filterMap (digit? base)
  let n := ds.foldl (fun n d => n * base + d) 0
  if ds.isEmpty || limit ≤ n || most.any (· < ds.length) then none
  else if !padded && ds.head? == some 0 && 1 < ds.length then none
  else some (n, cs.dropWhile isDigit)

/-- Takes bytes with points in front of all but the first. -/
def takeBytes? : Nat → Bool → List Char → Option (List Nat × List Char)
  | 0, _, cs => some ([], cs)
  | count + 1, first, cs => do
    let cs ← if first then some cs else takeChar? '.' cs
    let (n, cs) ← takeNumber? 10 256 (some 3) false cs
    let (ns, cs) ← takeBytes? count false cs
    return (n :: ns, cs)

/-- Takes four bytes. -/
def takeV4? (cs : List Char) : Option (List Nat × List Char) := takeBytes? 4 true cs

/-- Takes groups while there are any, with colons in front of all but the first, up to a limit. Says
also if the last two were written as four bytes. -/
def takeGroups : Nat → Bool → List Char → List Nat × Bool × List Char
  | 0, _, cs => ([], false, cs)
  | room + 1, first, cs =>
    let inner := if first then some cs else takeChar? ':' cs
    let pair? := if room = 0 then none else inner.bind takeV4?
    match pair? with
    | some ([a, b, c, d], rest) => ([a * 256 + b, c * 256 + d], true, rest)
    | _ => match inner.bind (takeNumber? 16 0x10000 (some 4) true) with
      | some (g, rest) =>
        let (gs, mixed, rest) := takeGroups room false rest
        (g :: gs, mixed, rest)
      | none => ([], false, cs)

/-- Takes eight groups. -/
def takeV6? (cs : List Char) : Option (List Nat × List Char) := do
  let (head, mixed, cs) := takeGroups 8 true cs
  if head.length = 8 then return (head, cs)
  else if mixed then none
  else do
    let cs ← takeChar? ':' cs
    let cs ← takeChar? ':' cs
    let (tail, _, cs) := takeGroups (7 - head.length) true cs
    return (head ++ List.replicate (8 - head.length - tail.length) 0 ++ tail, cs)

/-- Takes a colon and the number of a channel. -/
def takeChannel? (cs : List Char) : Option (Nat × List Char) := do
  takeNumber? 10 0x10000 none true (← takeChar? ':' cs)

/-- Takes the number of a zone, zero if there is none. -/
def takeZone (cs : List Char) : Nat × List Char :=
  ((takeChar? '%' cs).bind (takeNumber? 10 UInt32.size none true)).getD (0, cs)

/-- Four bytes and a channel. -/
def parseV4? (cs : List Char) : Option SocketAddress := do
  let (bytes, cs) ← takeV4? cs
  let (channel, cs) ← takeChannel? cs
  if cs.isEmpty then some ⟨.v4 bytes, channel⟩ else none

/-- Eight groups in brackets and a channel. -/
def parseV6? (cs : List Char) : Option SocketAddress := do
  let cs ← takeChar? '[' cs
  let (groups, cs) ← takeV6? cs
  let (zone, cs) := takeZone cs
  let cs ← takeChar? ']' cs
  let (channel, cs) ← takeChannel? cs
  if cs.isEmpty then some ⟨.v6 groups zone, channel⟩ else none

/-- The address of a text. -/
def parse? (s : String) : Option SocketAddress := parseV4? s.toList <|> parseV6? s.toList

end SocketAddress

end Groth16
