import Groth16.Circuit.Compile

/-!
# Built-in circuits

* `Circuit.cubic`: knowledge of a root of `x³ + x + 5 = y`.
* `Circuit.factor`: knowledge of a factorization into two factors that are not one.
* `Circuit.threshold`: a secret value that is at least a public threshold.
* `Circuit.known`: all of them with names and descriptions.
-/

set_option autoImplicit false

namespace Groth16.Circuit

variable {K : PrimeField}

/-- `x³ + x + 5 = y` with `x` secret and `y` public. -/
def cubic : Circuit K where
  schema := ⟨[⟨"x", .secret⟩, ⟨"y", .public⟩]⟩
  define io := do
    let x := .ofWire (← io.get "x")
    let y := .ofWire (← io.get "y")
    let cube ← Build.mulMany [x, x, x]
    let right ← Build.sum [cube, x, Build.constant (Fp.ofNat K 5)]
    Build.assertEqual y right

/-- `p · q = n` with `n` public and with `p - 1` and `q - 1` invertible. -/
def factor : Circuit K where
  schema := ⟨[⟨"n", .public⟩, ⟨"p", .secret⟩, ⟨"q", .secret⟩]⟩
  define io := do
    let n := .ofWire (← io.get "n")
    let p := .ofWire (← io.get "p")
    let q := .ofWire (← io.get "q")
    let product ← Build.mul p q
    Build.assertEqual (.ofWire product) n
    [p, q].forM fun f => do
      let shifted ← Build.sub f (Build.constant 1)
      discard (Build.inverse shifted)

/-- `value - threshold` has at most `bits` bits, with `value` secret and `threshold` public. -/
def threshold (bits : Nat) : Circuit K where
  schema := ⟨[⟨"threshold", .public⟩, ⟨"value", .secret⟩]⟩
  define io := do
    let value ← io.get "value"
    let threshold ← io.get "threshold"
    let difference ← Build.sub (.ofWire value) (.ofWire threshold)
    discard (Build.toBinary difference bits)

/-- A circuit with its name and what it states. -/
structure Entry (K : PrimeField) where
  /-- The name by which it is asked for. -/
  name : String
  /-- What it states. -/
  about : String
  /-- The circuit. -/
  circuit : Circuit K

/-- The built-in circuits. -/
def known (K : PrimeField) : List (Entry K) :=
  [⟨"cubic", "x^3 + x + 5 == y (x secret, y public)", cubic⟩,
    ⟨"factor", "p * q == n with p, q != 1 (p, q secret, n public)", factor⟩,
    ⟨"threshold", "value >= threshold, difference below 2^32 (value secret)", threshold 32⟩]

/-- The built-in circuit of a name. -/
def find? (K : PrimeField) (name : String) : Option (Circuit K) :=
  ((known K).find? (·.name == name)).map (·.circuit)

end Groth16.Circuit
