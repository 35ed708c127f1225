import Groth16.Data.Bytes
import Groth16.Data.Power

/-!
# Prime fields

The residues modulo a prime, with the few constants that transforms over the field need. A field
is a value of `PrimeField`, so everything above this module is generic in it, and an element is a
number below the modulus.

* `PrimeField`: modulus, multiplicative generator and two-adicity.
* `Fp K`: the residues modulo `K.modulus`, with ring operations and `inverse?`.
* `Fp.toBytes`: the canonical little-endian bytes of an element.

That the modulus is prime is not a field of `PrimeField`: nothing here computes with it, and the
statements that need it assume it.
-/

set_option autoImplicit false

namespace Groth16

/-- The constants of a prime field. -/
structure PrimeField where
  /-- The number of elements. -/
  modulus : Nat
  /-- A generator of the multiplicative group. -/
  generator : Nat
  /-- The exponent of two in `modulus - 1`. -/
  twoAdicity : Nat
  /-- There are at least two residues, `0` and `1`. -/
  one_lt_modulus : 1 < modulus := by decide

namespace PrimeField

variable (K : PrimeField)

theorem modulus_pos : 0 < K.modulus := Nat.lt_trans Nat.zero_lt_one K.one_lt_modulus

/-- The number of bits of the modulus. -/
def bitLength : Nat := K.modulus.log2 + 1

/-- The number of bytes that hold every element. -/
def byteLength : Nat := (K.bitLength + 7) / 8

end PrimeField

/-- A residue modulo the modulus of `K`, held as the number below the modulus. -/
structure Fp (K : PrimeField) where
  /-- The canonical integer of the residue. -/
  val : Nat
  /-- The canonical integer is reduced. -/
  isLt : val < K.modulus
  deriving DecidableEq

namespace Fp

variable {K : PrimeField}

/-- The residue of a natural number. -/
def ofNat (K : PrimeField) (n : Nat) : Fp K := ⟨n % K.modulus, Nat.mod_lt n K.modulus_pos⟩

/-- The residue of an integer. -/
def ofInt (K : PrimeField) (n : Int) : Fp K := ofNat K (n % K.modulus).toNat

instance : Zero (Fp K) := ⟨⟨0, K.modulus_pos⟩⟩

instance : One (Fp K) := ⟨⟨1, K.one_lt_modulus⟩⟩

instance : Inhabited (Fp K) := ⟨0⟩

instance : NatCast (Fp K) := ⟨ofNat K⟩

/-- The residue of a number below twice the modulus. -/
def reduceOnce (n : Nat) (h : n < 2 * K.modulus) : Fp K :=
  if below : n < K.modulus then ⟨n, below⟩ else ⟨n - K.modulus, by omega⟩

theorem val_reduceOnce (n : Nat) (h : n < 2 * K.modulus) :
    (reduceOnce n h : Fp K).val = n % K.modulus := by
  unfold reduceOnce
  split
  · next below => exact (Nat.mod_eq_of_lt below).symm
  · next above =>
    rw [Nat.mod_eq_sub_mod (Nat.le_of_not_lt above), Nat.mod_eq_of_lt (by omega)]

theorem add_bound (a b : Fp K) : a.val + b.val < 2 * K.modulus := by
  have := a.isLt
  have := b.isLt
  omega

theorem neg_bound (a : Fp K) : K.modulus - a.val < 2 * K.modulus := by
  have := K.modulus_pos
  omega

theorem sub_bound (a b : Fp K) : a.val + (K.modulus - b.val) < 2 * K.modulus := by
  have := a.isLt
  omega

instance : Add (Fp K) := ⟨fun a b => reduceOnce (a.val + b.val) (add_bound a b)⟩

instance : Neg (Fp K) := ⟨fun a => reduceOnce (K.modulus - a.val) (neg_bound a)⟩

instance : Sub (Fp K) := ⟨fun a b => reduceOnce (a.val + (K.modulus - b.val)) (sub_bound a b)⟩

instance : Mul (Fp K) := ⟨fun a b => ofNat K (a.val * b.val)⟩

instance : Pow (Fp K) Nat := ⟨power⟩

/-- The inverse of a non-zero element, by the power `modulus - 2`, and zero for zero. -/
def inverseOrZero (a : Fp K) : Fp K := if a = 0 then 0 else a ^ (K.modulus - 2)

/-- The inverse of a non-zero element. -/
def inverse? (a : Fp K) : Option (Fp K) := if a = 0 then none else some a.inverseOrZero

/-- The canonical bytes of an element, lowest byte first. -/
def toBytes (a : Fp K) : Bytes := Bytes.littleEndian K.byteLength a.val

/-- The sum of a list. -/
def sum (xs : List (Fp K)) : Fp K := xs.foldl (· + ·) 0

/-- The canonical integer in decimal digits. -/
def toDecimal (a : Fp K) : String := a.val.repr

/-! ## Values of the operations -/

@[ext] theorem ext {a b : Fp K} (h : a.val = b.val) : a = b := by
  cases a; cases b; cases h; rfl

@[simp] theorem val_ofNat (n : Nat) : (ofNat K n).val = n % K.modulus := rfl

@[simp] theorem val_zero : (0 : Fp K).val = 0 := rfl

@[simp] theorem val_one : (1 : Fp K).val = 1 := rfl

@[simp] theorem val_add (a b : Fp K) : (a + b).val = (a.val + b.val) % K.modulus :=
  val_reduceOnce _ _

@[simp] theorem val_neg (a : Fp K) : (-a).val = (K.modulus - a.val) % K.modulus :=
  val_reduceOnce _ _

@[simp] theorem val_sub (a b : Fp K) :
    (a - b).val = (a.val + (K.modulus - b.val)) % K.modulus :=
  val_reduceOnce _ _

@[simp] theorem val_mul (a b : Fp K) : (a * b).val = a.val * b.val % K.modulus := rfl

theorem val_lt (a : Fp K) : a.val < K.modulus := a.isLt

/-- An element is the residue of its canonical integer. -/
@[simp] theorem ofNat_val (a : Fp K) : ofNat K a.val = a := Fp.ext (Nat.mod_eq_of_lt a.isLt)

end Fp

/-- The primitive root of unity of order `2 ^ k`, where the field has one. -/
def PrimeField.rootOfUnity? (K : PrimeField) (k : Nat) : Option (Fp K) :=
  if k ≤ K.twoAdicity then some (Fp.ofNat K K.generator ^ ((K.modulus - 1) / (1 <<< k))) else none

end Groth16
