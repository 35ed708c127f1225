import Groth16.Text.Unprinted

/-!
# Quoted text

A text in quotes in which every character can be seen: quotes, backslashes and the common control
characters have escapes of two characters, and other characters without a glyph are written by their
number.

* `quote`: the text in quotes.
-/

set_option autoImplicit false

namespace Groth16.Text

/-- What is written for a character. -/
def quoteChar (c : Char) : List Char :=
  match c with
  | '\x00' => ['\\', '0']
  | '\t' => ['\\', 't']
  | '\n' => ['\\', 'n']
  | '\r' => ['\\', 'r']
  | '"' => ['\\', '"']
  | '\\' => ['\\', '\\']
  | c =>
    if isUnprinted c then ['\\', 'u', '\x7b'] ++ Nat.toDigits 16 c.toNat ++ ['\x7d'] else [c]

/-- The text in quotes. -/
def quote (s : String) : String := String.ofList ('"' :: s.toList.flatMap quoteChar ++ ['"'])

end Groth16.Text
