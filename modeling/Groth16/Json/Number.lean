/-!
# JSON numbers

The grammar of numbers, and which numbers are too large to be read. A number is read as a decimal
significand below `2 ^ 64` and a power of ten; digits that do not fit into the significand are
dropped, before the point with a factor of ten each. The number is too large if the product of
significand and power, each rounded to a double, rounds to infinity.

* `JsonNumber`: the parts of a number without its sign.
* `JsonNumber.tooLarge`: no double is near enough.
-/

set_option autoImplicit false

namespace Groth16

/-- The parts of a number without its sign. -/
structure JsonNumber where
  /-- The digits before the point. -/
  whole : List Nat
  /-- The digits behind the point. -/
  fraction : List Nat
  /-- The exponent is negative. -/
  negativeExponent : Bool
  /-- The digits of the exponent. -/
  exponent : List Nat

namespace JsonNumber

/-- The significand has no room for another digit. -/
def full (significand digit : Nat) : Bool := UInt64.size ≤ significand * 10 + digit

/-- Appends digits as long as they fit; the significand and the number of digits left. -/
def absorb : Nat → List Nat → Nat × Nat
  | significand, [] => (significand, 0)
  | significand, d :: ds =>
    if full significand d then (significand, ds.length + 1) else absorb (significand * 10 + d) ds

/-- The number that decimal digits stand for. -/
def ofDigits (ds : List Nat) : Nat := ds.foldl (fun n d => n * 10 + d) 0

/-- The double nearest to a natural number, a tie to the even one; doubles have 53 digits. -/
def roundToDouble (n : Nat) : Nat :=
  if n < 1 <<< 53 then n
  else
    let shift := n.log2 - 52
    let unit := 1 <<< shift
    let low := n / unit
    let rest := n % unit
    let up := unit < 2 * rest || (2 * rest == unit && low % 2 == 1)
    (if up then low + 1 else low) * unit

/-- The least natural number that rounds to infinity. -/
def infinite : Nat := 1 <<< 1024 - 1 <<< 970

/-- The power of ten with the largest exponent that is a double. -/
def maxPower : Int := 308

/-- The product of a significand and a power of ten rounds to infinity. -/
def overflows (significand : Nat) (power : Int) : Bool :=
  if significand = 0 ∨ power < 0 then false
  else if maxPower < power then true
  else infinite ≤ roundToDouble significand * roundToDouble (Nat.pow 10 power.toNat)

/-- The limit of exponents; larger ones are out of range whatever the significand. -/
def exponentLimit : Nat := 1 <<< 31

/-- The number is out of range. -/
def tooLarge (x : JsonNumber) : Bool :=
  let (significand, dropped) := absorb 0 x.whole
  let (significand, ignored) := absorb significand x.fraction
  let power : Int := dropped - (x.fraction.length - ignored : Nat)
  let e := ofDigits x.exponent
  if exponentLimit ≤ e then significand != 0 && !x.negativeExponent
  else overflows significand (if x.negativeExponent then power - e else power + e)

end JsonNumber

end Groth16
