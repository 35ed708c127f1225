import Groth16.Text.Hex

/-!
# JSON values

The values that are written as JSON. Members of an object keep their order.

* `JsonValue.compact`: the text without any blanks.
* `JsonValue.pretty`: the text with a line for each item and member, indented by two blanks a level.
* `JsonValue.quote`: a text in quotes, with escapes only where they are required.
-/

set_option autoImplicit false

namespace Groth16

/-- A JSON value. -/
inductive JsonValue where
  /-- A truth value. -/
  | bool (b : Bool)
  /-- A natural number. -/
  | number (n : Nat)
  /-- A text. -/
  | text (s : String)
  /-- A list of items. -/
  | list (items : List JsonValue)
  /-- A list of named members. -/
  | object (members : List (String × JsonValue))

namespace JsonValue

/-! ## Quoted text -/

/-- The letter of a control character that has an escape of two characters. -/
def shortEscape? (c : Char) : Option Char :=
  match c with
  | '"' => some '"'
  | '\\' => some '\\'
  | '\x08' => some 'b'
  | '\t' => some 't'
  | '\n' => some 'n'
  | '\x0c' => some 'f'
  | '\r' => some 'r'
  | _ => none

/-- What is written for a character inside of quotes. -/
def quoteChar (c : Char) : List Char :=
  match shortEscape? c with
  | some letter => ['\\', letter]
  | none =>
    if c.toNat < 0x20 then
      ['\\', 'u', '0', '0', Hex.digit (c.toNat / 16), Hex.digit (c.toNat % 16)]
    else [c]

/-- The text in quotes. -/
def quote (s : String) : String := String.ofList ('"' :: s.toList.flatMap quoteChar ++ ['"'])

/-! ## Compact text -/

/-- The texts with commas between them. -/
def joined (separator : String) (parts : List String) : String := separator.intercalate parts

mutual

/-- The text without blanks. -/
def compact : JsonValue → String
  | bool b => if b then "true" else "false"
  | number n => n.repr
  | text s => quote s
  | list items => "[" ++ joined "," (compactItems items) ++ "]"
  | object members => "\x7b" ++ joined "," (compactMembers members) ++ "\x7d"

/-- The texts of items. -/
def compactItems : List JsonValue → List String
  | [] => []
  | v :: vs => compact v :: compactItems vs

/-- The texts of members. -/
def compactMembers : List (String × JsonValue) → List String
  | [] => []
  | (name, v) :: ms => (quote name ++ ":" ++ compact v) :: compactMembers ms

end

/-! ## Indented text -/

/-- A line break and the indentation of a level. -/
def lineBreak (level : Nat) : String := "\n" ++ String.ofList (List.replicate (2 * level) ' ')

/-- The parts on lines of their own between brackets, or the empty brackets. -/
def block (level : Nat) (opening closing : String) (parts : List String) : String :=
  if parts.isEmpty then opening ++ closing
  else
    opening ++ lineBreak (level + 1) ++ joined ("," ++ lineBreak (level + 1)) parts ++
      lineBreak level ++ closing

mutual

/-- The text of a value that stands at a level. -/
def prettyAt (level : Nat) : JsonValue → String
  | bool b => if b then "true" else "false"
  | number n => n.repr
  | text s => quote s
  | list items => block level "[" "]" (prettyItems (level + 1) items)
  | object members => block level "\x7b" "\x7d" (prettyMembers (level + 1) members)

/-- The texts of items that stand at a level. -/
def prettyItems (level : Nat) : List JsonValue → List String
  | [] => []
  | v :: vs => prettyAt level v :: prettyItems level vs

/-- The texts of members that stand at a level. -/
def prettyMembers (level : Nat) : List (String × JsonValue) → List String
  | [] => []
  | (name, v) :: ms => (quote name ++ ": " ++ prettyAt level v) :: prettyMembers level ms

end

/-- The text with a line for each item and member. -/
def pretty (v : JsonValue) : String := prettyAt 0 v

end JsonValue

end Groth16
