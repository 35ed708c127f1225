import Groth16.Circuit.Constraint
import Groth16.Data.Dictionary
import Groth16.Field.Literal
import Groth16.Field.Modulus
import Groth16.Text.Quoted

/-!
# Assignments of inputs

* `Assignment`: values for inputs, by name.
* `Assignment.setLiteral`: sets a name to the element that a text stands for.
* `Assignment.checkNames`: the check that exactly the declared inputs have values.
* `WitnessError`: all that can be wrong with an assignment.
-/

set_option autoImplicit false

namespace Groth16

/-- Why an assignment gives no witness. -/
inductive WitnessError where
  /-- The circuit was compiled for another field. -/
  | field (cause : ModulusMismatch)
  /-- The text for an input is not a literal. -/
  | invalidValue (name : String) (cause : LiteralError)
  /-- A declared input has no value. -/
  | missingInput (name : String) (role : Role)
  /-- A name that is given was not declared. -/
  | unknownInput (name : String)
  /-- A name that is given was declared with the other role. -/
  | roleMismatch (name : String) (declared : Role)
  /-- A constraint does not hold. -/
  | unsatisfied (cause : Unsatisfied)
  deriving DecidableEq

/-- The text of the error. -/
def WitnessError.message : WitnessError → String
  | .field cause => cause.message
  | .invalidValue name cause => s!"invalid value for `{name}`: {cause.message}"
  | .missingInput name role => s!"missing {role.name} input `{name}`"
  | .unknownInput name => s!"unknown input `{name}`"
  | .roleMismatch name declared => s!"input `{name}` is declared {declared.name}"
  | .unsatisfied cause => s!"unsatisfiable witness: {cause.message}"

/-- Values for inputs, by name. -/
abbrev Assignment (K : PrimeField) := Dictionary (Fp K)

namespace Assignment

variable {K : PrimeField}

/-- Sets a name to the element that a text stands for. -/
def setLiteral (a : Assignment K) (name literal : String) : Except WitnessError (Assignment K) :=
  match Literal.parse K literal with
  | .ok value => .ok (a.insert name value)
  | .error cause => .error (.invalidValue name cause)

/-- The assignment of names to the elements that texts stand for. -/
def ofLiterals (texts : List (String × String)) : Except WitnessError (Assignment K) :=
  texts.foldlM (fun a e => setLiteral a e.1 e.2) Dictionary.empty

/-- A line that describes the assignment by its names, without their values. -/
def describe (a : Assignment K) : String :=
  "Assignment \x7b names: [" ++ ", ".intercalate (a.names.map Text.quote) ++ "] \x7d"

/-- The first name that is given without being declared, as an error. -/
def checkGiven (declared other : List String) (otherRole : Role) :
    List String → Except WitnessError Unit
  | [] => .ok ()
  | name :: names =>
    if declared.contains name then checkGiven declared other otherRole names
    else if other.contains name then .error (.roleMismatch name otherRole)
    else .error (.unknownInput name)

/-- The first declared name without a value, as an error. -/
def checkDeclared (a : Assignment K) (role : Role) : List String → Except WitnessError Unit
  | [] => .ok ()
  | name :: names =>
    if a.contains name then checkDeclared a role names else .error (.missingInput name role)

/-- Passes if exactly the declared names have values; names of the other role are told apart from
unknown ones. -/
def checkNames (a : Assignment K) (declared : List String) (role : Role) (other : List String)
    (otherRole : Role) : Except WitnessError Unit := do
  checkGiven declared other otherRole a.names
  checkDeclared a role declared

/-- The values of names, zero where there is none. -/
def valuesOf (a : Assignment K) (names : List String) : List (Fp K) :=
  names.map fun name => (a.find? name).getD 0

end Assignment

end Groth16
