import Groth16.Circuit.ConstraintSystem
import Groth16.Circuit.Schema
import Groth16.Outcome

/-!
# Building constraint systems

A circuit is written as a computation in the monad `Build`. Its operations take linear combinations
and give linear combinations. Where a product is needed they allocate an internal wire, record its
recipe and append a constraint; an expression that only touches the one-wire is folded.

* `Builder`: the system so far.
* `Build`: computations that extend it. What was emitted stays when an operation fails.
* `Build.compute` and `Build.enforce`: the only ways in which wires and constraints come about.

| operation         | constraints                          |
|-------------------|--------------------------------------|
| `mul a b`         | `a · b = v`                          |
| `assertEqual a b` | `a · 1 = b`                          |
| `inverse a`       | `a · v = 1`                          |
| `div a b`         | `b · q = a`                          |
| `assertBoolean a` | `a · (1 - a) = 0`                    |
| `select s x y`    | `s · (x - y) = t`, result `t + y`    |
| `isZero a`        | `a · m = 1 - o`, `a · o = 0`         |
| `toBinary a n`    | `n` booleanity checks, recomposition |

Handles carry the number of the compilation that allocated them. A handle of another compilation,
or one that was never allocated, is a breach; the one-wire belongs to all.
-/

set_option autoImplicit false

namespace Groth16

/-- The system under construction. -/
structure Builder (K : PrimeField) where
  /-- The number of the compilation. -/
  session : Nat
  /-- The number of wires so far, the one-wire included. -/
  numWires : Nat
  /-- The inputs are complete. -/
  inputsSealed : Bool
  /-- The constraints so far. -/
  constraints : Array (Constraint K)
  /-- The hints so far. -/
  hints : Array (Hint K)

/-- The builder of a compilation before its first operation. -/
def Builder.fresh (K : PrimeField) (session : Nat) : Builder K := ⟨session, 1, false, #[], #[]⟩

/-- The finished system. -/
def Builder.finish {K : PrimeField} (b : Builder K) (publicNames secretNames : List String)
    (modulus : Modulus) : R1CS K :=
  ConstraintSystem.seal
    { constraints := b.constraints
      numWires := b.numWires
      publicNames := publicNames
      secretNames := secretNames
      hints := b.hints
      modulus := modulus }

/-- A computation that extends a system. -/
abbrev Build (K : PrimeField) (α : Type) :=
  ExceptT (Failure CompileError) (StateM (Builder K)) α

namespace Build

variable {K : PrimeField}

/-- Fails with an error. -/
def report {α : Type} (e : CompileError) : Build K α := throw (.reported e)

/-! ## Wires -/

/-- The builder may use the handle: it is the one-wire, or a wire that it allocated. -/
def owns (b : Builder K) (w : Wire) : Bool :=
  w.role = .constant || (w.session = b.session && w.index < b.numWires)

/-- Passes a combination whose wires may all be used. -/
def checked (a : LinearCombination K) : Build K (LinearCombination K) := do
  let b ← get
  if a.wires.all (owns b) then return a else throw .breach

/-- The next wire. -/
def nextWire (role : Role) : Build K Wire := do
  let b ← get
  set { b with numWires := b.numWires + 1 }
  return ⟨b.numWires, role, b.session⟩

/-- Allocates an input wire. Only public and secret wires can be had, and only until the inputs
are sealed. -/
def allocate (role : Role) : Build K Wire := do
  if Schema.isInputRole role then
    if (← get).inputsSealed then report (.lateAllocation role) else nextWire role
  else report (.invalidRole role)

/-- Ends the allocation of inputs. -/
def sealInputs : Build K Unit := modify fun b => { b with inputsSealed := true }

/-- Allocates an internal wire with its recipe. If the recipe has no value, the constraint that is
appended next is reported. -/
def compute (recipe : Recipe K) : Build K Wire := do
  let w ← nextWire .internal
  modify fun b => { b with hints := b.hints.push ⟨w.index, b.constraints.size, recipe⟩ }
  return w

/-- Appends a constraint. -/
def enforce (tag : Tag) (a b c : LinearCombination K) : Build K Unit :=
  modify fun s => { s with constraints := s.constraints.push ⟨a, b, c, tag⟩ }

/-- The combination that is one on every vector of wires. -/
def one : LinearCombination K := .ofWire .one

/-! ## Linear operations -/

/-- A constant. -/
def constant (k : Fp K) : LinearCombination K := .constant k

/-- The sum of two values. -/
def add (a b : LinearCombination K) : Build K (LinearCombination K) :=
  return (← checked a) + (← checked b)

/-- The difference of two values. -/
def sub (a b : LinearCombination K) : Build K (LinearCombination K) :=
  return (← checked a) - (← checked b)

/-- The negative of a value. -/
def neg (a : LinearCombination K) : Build K (LinearCombination K) := return -(← checked a)

/-- A multiple of a value. -/
def scale (a : LinearCombination K) (k : Fp K) : Build K (LinearCombination K) :=
  return (← checked a).scale k

/-- The sum of a list of values. -/
def sum (as : List (LinearCombination K)) : Build K (LinearCombination K) :=
  as.foldlM (fun acc a => return acc + (← checked a)) 0

/-! ## Products and assertions -/

/-- The product of two values, on a wire of its own. -/
def mul (a b : LinearCombination K) : Build K Wire := do
  let a ← checked a
  let b ← checked b
  let v ← compute (.product a b)
  enforce .mul a b (.ofWire v)
  return v

/-- The product of all factors, as a chain of products. -/
def mulMany : List (LinearCombination K) → Build K (LinearCombination K)
  | [] => report .emptyProduct
  | a :: as => do
    let first ← checked a
    as.foldlM (fun acc f => return .ofWire (← mul acc f)) first

/-- Asserts that two values are equal. Two constants are compared at once. -/
def assertEqual (a b : LinearCombination K) : Build K Unit := do
  let a ← checked a
  let b ← checked b
  match a.asConstant?, b.asConstant? with
  | some x, some y => if x = y then return else report (.unequalConstants x.val y.val)
  | _, _ => enforce .assertEqual a one b

/-- The inverse of a value. -/
def inverse (a : LinearCombination K) : Build K (LinearCombination K) := do
  let a ← checked a
  match a.asConstant? with
  | some k =>
    match k.inverse? with
    | some i => return .constant i
    | none => report .divisionByZero
  | none =>
    let v ← compute (.inverse a)
    enforce .inverse a (.ofWire v) one
    return .ofWire v

/-- The quotient of two values. -/
def div (a b : LinearCombination K) : Build K (LinearCombination K) := do
  let a ← checked a
  let b ← checked b
  match b.asConstant? with
  | some k =>
    match k.inverse? with
    | some i => return a.scale i
    | none => report .divisionByZero
  | none =>
    let q ← compute (.quotient a b)
    enforce .division b (.ofWire q) a
    return .ofWire q

/-! ## Bits -/

/-- Asserts that a value is zero or one. A constant is compared at once. -/
def enforceBoolean (tag : Tag) (a : LinearCombination K) : Build K Unit :=
  match a.asConstant? with
  | some k => if k = 0 ∨ k = 1 then return else report (.nonBooleanConstant k.val)
  | none => enforce tag a (.constant 1 - a) 0

/-- Asserts that a value is zero or one. -/
def assertBoolean (a : LinearCombination K) : Build K Unit := do
  enforceBoolean .boolean (← checked a)

/-- `x` if the bit is one and `y` if it is zero. The bit is constrained to be one of both. -/
def select (bit x y : LinearCombination K) : Build K (LinearCombination K) := do
  let bit ← checked bit
  let x ← checked x
  let y ← checked y
  enforceBoolean .select bit
  match bit.asConstant? with
  | some k => return if k = 1 then x else y
  | none =>
    let d := x - y
    if d.isEmpty then return y
    let t ← compute (.product bit d)
    enforce .select bit d (.ofWire t)
    return .ofWire t + y

/-- One if the value is zero, else zero. -/
def isZero (a : LinearCombination K) : Build K (LinearCombination K) := do
  let a ← checked a
  match a.asConstant? with
  | some k => return .constant (.ofBool (k = 0))
  | none =>
    let m ← compute (.inverseOrZero a)
    let out ← compute (.isZero a)
    enforce .isZero a (.ofWire m) (.constant 1 - .ofWire out)
    enforce .isZero a (.ofWire out) 0
    return .ofWire out

/-- Wires for `n` bits of a value from bit `i` on, each constrained to be zero or one. -/
def bits (a : LinearCombination K) : Nat → Nat → Build K (List Wire)
  | _, 0 => return []
  | i, n + 1 => do
    let b ← compute (.bit a i)
    enforce .binary (.ofWire b) (.constant 1 - .ofWire b) 0
    return b :: (← bits a (i + 1) n)

/-- Wires times ascending powers of two, the first times `weight`. -/
def weighted (weight : Fp K) : List Wire → List (Term K)
  | [] => []
  | b :: bs => ⟨weight, b⟩ :: weighted (weight + weight) bs

/-- The most bits a value can be decomposed into: one less than the modulus has. -/
def maxBits (K : PrimeField) : Nat := K.bitLength - 1

/-- The `n` lowest bits of a value, lowest first. The value is constrained to have no others. -/
def toBinary (a : LinearCombination K) (n : Nat) : Build K (List Wire) := do
  let a ← checked a
  if n = 0 ∨ maxBits K < n then report (.bitWidth n (maxBits K))
  let bs ← bits a 0 n
  enforce .binary (.ofTerms (weighted 1 bs)) one a
  return bs

/-- The number with the given bits from the power `weight` of two on, added to `acc`. -/
def fromBinaryFrom (acc : LinearCombination K) (weight : Fp K) :
    List (LinearCombination K) → Build K (LinearCombination K)
  | [] => return acc
  | b :: bs => do
    let b ← checked b
    enforceBoolean .boolean b
    fromBinaryFrom (acc + b.scale weight) (weight + weight) bs

/-- The number with the given bits, lowest first. Every bit is constrained to be zero or one. -/
def fromBinary (bs : List (LinearCombination K)) : Build K (LinearCombination K) :=
  fromBinaryFrom 0 1 bs

end Build

end Groth16
