/-!
# Lines

What a reader of lines makes of a text that is written as one line: it may hold line breaks itself.

* `linesOf`: the lines.
-/

set_option autoImplicit false

namespace Groth16.Text

/-- A line without the carriage return at its end. -/
def dropReturn (line : List Char) : List Char :=
  if line.getLast? = some '\r' then line.dropLast else line

/-- The lines of a text with a line break put behind it. A break is a line feed, with or without a
carriage return in front of it. -/
def linesOf (s : String) : List String :=
  ((s.splitOn "\n").map fun line => String.ofList (dropReturn line.toList))

end Groth16.Text
