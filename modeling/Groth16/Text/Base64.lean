import Groth16.Data.Bytes

/-!
# Base64

Three bytes are written as four digits of six bits. A last group of one or two bytes is written as
two or three digits and filled up with padding to four characters.

* `Base64.encode`: the text of bytes.
* `Base64.decode?`: the bytes of a text. The padding has to be there, and the bits of the last digit
  that belong to no byte have to be zero.
-/

set_option autoImplicit false

namespace Groth16.Base64

/-- The digits. -/
def alphabet : List Char :=
  "ABCDEFGHIJKLMNOPQRSTUVWXYZabcdefghijklmnopqrstuvwxyz0123456789+/".toList

/-- The digit of a number below 64. -/
def digit (n : Nat) : Char := alphabet.getD n 'A'

/-- The value of a digit. -/
def digit? (c : Char) : Option Nat := alphabet.idxOf? c

/-- The character that fills up the last group. -/
def padding : Char := '='

/-- The characters of bytes. -/
def encodeChars : Bytes → List Char
  | [] => []
  | [a] =>
    let n := a.toNat * 16
    [digit (n / 64), digit (n % 64), padding, padding]
  | [a, b] =>
    let n := (a.toNat * 256 + b.toNat) * 4
    [digit (n / 4096), digit (n / 64 % 64), digit (n % 64), padding]
  | a :: b :: c :: rest =>
    let n := (a.toNat * 256 + b.toNat) * 256 + c.toNat
    digit (n / 262144) :: digit (n / 4096 % 64) :: digit (n / 64 % 64) :: digit (n % 64) ::
      encodeChars rest

/-- The text of bytes. -/
def encode (bs : Bytes) : String := String.ofList (encodeChars bs)

/-- The bytes of a last group with padding. -/
def decodeLast? (a b c d : Char) : Option Bytes := do
  let x ← digit? a
  let y ← digit? b
  if d ≠ padding then none
  else if c = padding then
    let n := x * 64 + y
    if n % 16 = 0 then some [UInt8.ofNat (n / 16)] else none
  else
    let n := (x * 64 + y) * 64 + (← digit? c)
    if n % 4 = 0 then some [UInt8.ofNat (n / 1024), UInt8.ofNat (n / 4)] else none

/-- The three bytes of a full group. -/
def decodeGroup? (a b c d : Char) : Option Bytes := do
  let n := (((← digit? a) * 64 + (← digit? b)) * 64 + (← digit? c)) * 64 + (← digit? d)
  return [UInt8.ofNat (n / 65536), UInt8.ofNat (n / 256), UInt8.ofNat n]

/-- The bytes of characters. -/
def decodeChars? : List Char → Option Bytes
  | [] => some []
  | [a, b, c, d] => decodeGroup? a b c d <|> decodeLast? a b c d
  | a :: b :: c :: d :: rest => do
    let bs ← decodeGroup? a b c d
    return bs ++ (← decodeChars? rest)
  | _ => none

/-- The bytes of a text. -/
def decode? (s : String) : Option Bytes := decodeChars? s.toList

end Groth16.Base64
