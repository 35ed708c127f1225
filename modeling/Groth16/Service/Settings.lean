import Groth16.Text.Blank

/-!
# Settings

What can be set from the environment of a program. A variable that is blank counts as missing, and a
number that cannot be read gives way to the default.

* `Settings`: the settings and their defaults.
* `Settings.ofEnvironment`: the settings of an environment.
* `wordOfText?`: the reader of numbers.
-/

set_option autoImplicit false

namespace Groth16

/-- What can be set from the environment. -/
structure Settings where
  /-- The number of threads; zero stands for one a processor. -/
  threads : Nat := 0
  /-- The address on which the service listens. -/
  address : String := "127.0.0.1:8080"
  /-- How many bytes the body of a request may have. -/
  maxBody : Nat := 2 * 1024 * 1024
  /-- The log is written as JSON. -/
  logJson : Bool := false
  /-- The seed of setups that can be repeated, and whose secrets are therefore known. -/
  devSeed : Option UInt64 := none

/-- The number below `2 ^ 64` of decimal digits. -/
def wordOfDigits? (cs : List Char) : Option Nat :=
  if cs.isEmpty || !cs.all Char.isDigit then none
  else
    let n := cs.foldl (fun n c => n * 10 + (c.toNat - 0x30)) 0
    if n < UInt64.size then some n else none

/-- The number below `2 ^ 64` of a decimal text, with or without a plus sign. -/
def wordOfText? (s : String) : Option Nat :=
  match s.toList with
  | '+' :: cs => wordOfDigits? cs
  | cs => wordOfDigits? cs

/-- The text says that a switch is on: it is `1`, or `true` in letters of either case. -/
def isOn (s : String) : Bool := s == "1" || s.toLower == "true"

namespace Settings

/-- The settings of an environment. -/
def ofEnvironment (lookup : String → Option String) : Settings :=
  let given (name : String) : Option String :=
    (lookup name).filter fun v => !(Text.trim v).isEmpty
  let word (name : String) : Option Nat := do wordOfText? (Text.trim (← given name))
  let d : Settings := {}
  { threads := (word "ZKR1CS_THREADS").getD d.threads
    address := (given "ZKR1CS_ADDR").getD d.address
    maxBody := (word "ZKR1CS_MAX_BODY").getD d.maxBody
    logJson := ((given "ZKR1CS_LOG_JSON").map isOn).getD d.logJson
    devSeed := (word "ZKR1CS_DEV_SEED").map UInt64.ofNat }

end Settings

end Groth16
