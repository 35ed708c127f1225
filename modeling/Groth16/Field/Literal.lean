import Groth16.Field.Basic
import Groth16.Text.Blank
import Groth16.Text.Hex

/-!
# Literals

The texts that stand for field elements: decimal digits, or `0x` and hexadecimal digits, after an
optional minus sign. Blanks at the ends and after the sign are ignored, and so are underscores
anywhere behind the sign. The number may have any length; it is reduced modulo the prime.

* `Literal.split`: the sign and the characters that are read.
* `Literal.parse`: the element, or why the text is none.
-/

set_option autoImplicit false

namespace Groth16

/-- Why a text is not a literal. -/
inductive LiteralError where
  /-- Nothing is left to read. -/
  | empty
  /-- A decimal literal holds a character that is not a digit. -/
  | invalidDigit (ch : Char) (literal : String)
  /-- What follows `0x` is empty or holds a character that is not a hexadecimal digit. -/
  | invalidHex (literal : String)
  deriving DecidableEq

/-- The text of the error. -/
def LiteralError.message : LiteralError → String
  | .empty => "empty field element literal"
  | .invalidDigit ch literal => s!"invalid digit `{ch}` in field element literal `{literal}`"
  | .invalidHex literal => s!"invalid hex field element literal `{literal}`"

namespace Literal

/-- The value of a decimal digit. -/
def decimalDigit? (c : Char) : Option Nat :=
  if '0' ≤ c ∧ c ≤ '9' then some (c.toNat - '0'.toNat) else none

/-- The number that digits of a base stand for, continuing from `start`; a character that has no
value counts as zero. -/
def numeral (base : Nat) (digit? : Char → Option Nat) (start : Nat) (cs : List Char) : Nat :=
  cs.foldl (fun n c => base * n + (digit? c).getD 0) start

/-- Whether a minus sign leads, and the characters that are read behind it. -/
def split (cs : List Char) : Bool × List Char :=
  match Text.trimBlank cs with
  | '-' :: rest => (true, (Text.trimBlankStart rest).filter (· != '_'))
  | rest => (false, rest.filter (· != '_'))

/-- The number that an unsigned text stands for. `literal` is the text that an error names. -/
def magnitude (literal : String) : List Char → Except LiteralError Nat
  | [] => .error .empty
  | '0' :: 'x' :: ds => hexadecimal literal ds
  | '0' :: 'X' :: ds => hexadecimal literal ds
  | ds =>
    match ds.find? (fun c => (decimalDigit? c).isNone) with
    | some c => .error (.invalidDigit c literal)
    | none => .ok (numeral 10 decimalDigit? 0 ds)
where
  /-- The number behind `0x`. -/
  hexadecimal (literal : String) (ds : List Char) : Except LiteralError Nat :=
    if !ds.isEmpty && ds.all (fun c => (Hex.digit? c).isSome) then
      .ok (numeral 16 Hex.digit? 0 ds)
    else .error (.invalidHex literal)

/-- The field element that a text stands for. -/
def parse (K : PrimeField) (literal : String) : Except LiteralError (Fp K) := do
  let (negative, body) := split literal.toList
  let n ← magnitude literal body
  let a := Fp.ofNat K n
  return if negative then -a else a

end Literal

end Groth16
