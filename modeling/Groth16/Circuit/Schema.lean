import Groth16.Circuit.Wire
import Groth16.Field.Modulus
import Groth16.Text.Blank

/-!
# Input schemas

A circuit declares its inputs by name and role, in an order that fixes the wires: public inputs
first, then secret inputs, each in declaration order.

* `Schema`: the declarations.
* `CompileError`: all that can be wrong with a circuit.
* `Schema.validate`: the check of names and roles.
-/

set_option autoImplicit false

namespace Groth16

/-- Why a circuit does not compile. -/
inductive CompileError where
  /-- The circuit is to be compiled for another field. -/
  | field (cause : ModulusMismatch)
  /-- An input has the empty name. -/
  | emptyName
  /-- The name of an input holds a blank or a control character. -/
  | invalidName (name : String)
  /-- Two inputs have one name. -/
  | duplicateName (name : String)
  /-- Wires of that role cannot be asked for. -/
  | invalidRole (role : Role)
  /-- The circuit asks for an input that it did not declare. -/
  | unknownInput (name : String)
  /-- An input wire is asked for after the inputs were sealed. -/
  | lateAllocation (role : Role)
  /-- A division by the constant zero. -/
  | divisionByZero
  /-- A decomposition into too few or too many bits. -/
  | bitWidth (requested max : Nat)
  /-- A product without factors. -/
  | emptyProduct
  /-- Two different constants are asserted to be equal. -/
  | unequalConstants (x y : Nat)
  /-- A constant that is neither zero nor one is asserted to be a bit. -/
  | nonBooleanConstant (k : Nat)
  /-- The circuit itself gives up. -/
  | circuit (reason : String)
  deriving DecidableEq

/-- The decimal text of a number inside of a message, where zero is left blank. -/
def blankZero (n : Nat) : String := if n = 0 then "" else n.repr

/-- The text of the error. -/
def CompileError.message : CompileError → String
  | .field cause => cause.message
  | .emptyName => "input name must not be empty"
  | .invalidName name => s!"invalid input name `{name}`"
  | .duplicateName name => s!"duplicate input name `{name}`"
  | .invalidRole role => s!"role `{role.name}` cannot be used for this wire"
  | .unknownInput name => s!"circuit referenced undeclared input `{name}`"
  | .lateAllocation role =>
    s!"wire layout violation: {role.name} wire allocated after circuit logic started"
  | .divisionByZero => "division by constant zero"
  | .bitWidth requested max => s!"bit width {requested} out of range (1..={max})"
  | .emptyProduct => "product of zero factors"
  | .unequalConstants x y =>
    s!"inconsistent circuit: constant assertion {blankZero x} == {blankZero y} can never hold"
  | .nonBooleanConstant k => s!"inconsistent circuit: constant {blankZero k} is not boolean"
  | .circuit reason => s!"circuit error: {reason}"

/-- A declared input. -/
structure Declaration where
  /-- Its name. -/
  name : String
  /-- Its role. -/
  role : Role
  deriving DecidableEq

/-- The inputs of a circuit, in declaration order. -/
structure Schema where
  /-- The declarations. -/
  inputs : List Declaration
  deriving DecidableEq

namespace Schema

/-- The names declared with a role, in declaration order. -/
def names (s : Schema) (role : Role) : List String :=
  (s.inputs.filter (·.role = role)).map (·.name)

/-- The name holds a blank or a control character. -/
def isIllegible (name : String) : Bool :=
  name.toList.any fun c => Text.isBlank c || Text.isControlCode c

/-- Inputs are declared as public or secret only. -/
def isInputRole (role : Role) : Bool := role = .public || role = .secret

/-- Checks declarations in order, given the names before them. -/
def validateFrom (seen : List String) : List Declaration → Except CompileError Unit
  | [] => .ok ()
  | d :: ds =>
    if d.name.isEmpty then .error .emptyName
    else if isIllegible d.name then .error (.invalidName d.name)
    else if !isInputRole d.role then .error (.invalidRole d.role)
    else if seen.contains d.name then .error (.duplicateName d.name)
    else validateFrom (d.name :: seen) ds

/-- Passes if the names are not empty, legible and distinct and the roles are public or secret;
else reports the first declaration that fails. -/
def validate (s : Schema) : Except CompileError Unit := validateFrom [] s.inputs

end Schema

end Groth16
