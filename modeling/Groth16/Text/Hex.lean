import Groth16.Data.Bytes

/-!
# Hexadecimal text

* `Hex.encode`: two lower-case digits a byte.
* `Hex.decode?`: the bytes of an even number of digits of either case.
* `Hex.digit?`: the value of one digit.
-/

set_option autoImplicit false

namespace Groth16.Hex

/-- The lower-case digit of a number below 16. -/
def digit (n : Nat) : Char :=
  if n < 10 then Char.ofNat (0x30 + n) else Char.ofNat (0x57 + n)

/-- The value of a digit of either case. -/
def digit? (c : Char) : Option Nat :=
  let n := c.toNat
  if 0x30 ≤ n ∧ n ≤ 0x39 then some (n - 0x30)
  else if 0x61 ≤ n ∧ n ≤ 0x66 then some (n - 0x57)
  else if 0x41 ≤ n ∧ n ≤ 0x46 then some (n - 0x37)
  else none

/-- Two digits for each byte. -/
def encodeChars : Bytes → List Char
  | [] => []
  | b :: bs => digit (b.toNat / 16) :: digit (b.toNat % 16) :: encodeChars bs

/-- The bytes in lower-case digits, two a byte. -/
def encode (bs : Bytes) : String := String.ofList (encodeChars bs)

/-- The bytes that pairs of digits stand for. -/
def decodeChars? : List Char → Option Bytes
  | [] => some []
  | [_] => none
  | c :: d :: rest => do
    let high ← digit? c
    let low ← digit? d
    let bs ← decodeChars? rest
    return UInt8.ofNat (16 * high + low) :: bs

/-- The bytes that an even number of digits stands for. -/
def decode? (s : String) : Option Bytes := decodeChars? s.toList

end Groth16.Hex
