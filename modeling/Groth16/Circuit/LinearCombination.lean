import Groth16.Circuit.Wire
import Groth16.Field.Basic

/-!
# Linear combinations

Weighted sums of wires, in a normal form: the terms stand in ascending order of the wires' indices,
each index once, and no coefficient is zero. `ofTerms` makes the normal form; the operations keep
it.

* `LinearCombination.ofTerms`: the sum of any list of terms.
* `LinearCombination.evaluate?`: the value on a vector that holds all wires it mentions.
* `LinearCombination.eval`: the value on any assignment of wires.
* `LinearCombination.asConstant?`: the value, if only the one-wire is mentioned.
* `LinearCombination.stream`: the bytes that stand for the combination in a digest.
-/

set_option autoImplicit false

namespace Groth16

/-- A wire and its coefficient. -/
structure Term (K : PrimeField) where
  /-- The coefficient. -/
  coeff : Fp K
  /-- The wire. -/
  wire : Wire
  deriving DecidableEq

/-- A weighted sum of wires. -/
structure LinearCombination (K : PrimeField) where
  /-- The summands. -/
  terms : List (Term K)
  deriving DecidableEq

namespace LinearCombination

variable {K : PrimeField}

/-! ## Normal form -/

/-- Adds a term to terms in ascending order. Where the index is there already the coefficients are
added, and the handle of the added term is kept. -/
def addTerm (t : Term K) : List (Term K) → List (Term K)
  | [] => [t]
  | u :: us =>
    if t.wire.index < u.wire.index then t :: u :: us
    else if t.wire.index = u.wire.index then ⟨t.coeff + u.coeff, t.wire⟩ :: us
    else u :: addTerm t us

/-- The sum of a list of terms. Of several handles to one index the first is kept. -/
def ofTerms (ts : List (Term K)) : LinearCombination K :=
  ⟨(ts.foldr addTerm []).filter fun t => t.coeff ≠ 0⟩

/-! ## Operations -/

instance : Zero (LinearCombination K) := ⟨⟨[]⟩⟩

instance : Inhabited (LinearCombination K) := ⟨0⟩

/-- A multiple of the one-wire. -/
def constant (k : Fp K) : LinearCombination K := ofTerms [⟨k, .one⟩]

/-- A wire by itself. -/
def ofWire (w : Wire) : LinearCombination K := ⟨[⟨1, w⟩]⟩

instance : Add (LinearCombination K) := ⟨fun a b => ofTerms (a.terms ++ b.terms)⟩

instance : Neg (LinearCombination K) := ⟨fun a => ⟨a.terms.map fun t => ⟨-t.coeff, t.wire⟩⟩⟩

instance : Sub (LinearCombination K) := ⟨fun a b => a + -b⟩

/-- Every coefficient times `k`. -/
def scale (a : LinearCombination K) (k : Fp K) : LinearCombination K :=
  if k = 0 then 0 else ⟨a.terms.map fun t => ⟨t.coeff * k, t.wire⟩⟩

/-! ## Reading -/

/-- There are no terms. -/
def isEmpty (a : LinearCombination K) : Bool := a.terms.isEmpty

/-- The wires that are mentioned. -/
def wires (a : LinearCombination K) : List Wire := a.terms.map (·.wire)

/-- The value, if at most the one-wire is mentioned. -/
def asConstant? (a : LinearCombination K) : Option (Fp K) :=
  match a.terms with
  | [] => some 0
  | [t] => if t.wire.index = 0 then some t.coeff else none
  | _ => none

/-- The value where wire `i` holds `z i`. -/
def eval (a : LinearCombination K) (z : Nat → Fp K) : Fp K :=
  a.terms.foldr (fun t rest => t.coeff * z t.wire.index + rest) 0

/-- The sum of the values of terms on a vector. -/
def evaluateTerms? (z : Array (Fp K)) : List (Term K) → Option (Fp K)
  | [] => some 0
  | t :: ts => do
    let a ← z[t.wire.index]?
    let rest ← evaluateTerms? z ts
    return t.coeff * a + rest

/-- The value on a vector; none if a wire lies past its end. -/
def evaluate? (a : LinearCombination K) (z : Array (Fp K)) : Option (Fp K) :=
  evaluateTerms? z a.terms

/-! ## Bytes -/

/-- A 64-bit count or index, lowest byte first. -/
def word (n : Nat) : Bytes := Bytes.littleEndian 8 n

/-- The bytes of a term: index, role and coefficient. -/
def termStream (t : Term K) : Bytes :=
  word t.wire.index ++ t.wire.role.code :: t.coeff.toBytes

/-- The bytes of the combination: the number of terms, then the terms. -/
def stream (a : LinearCombination K) : Bytes :=
  word a.terms.length ++ a.terms.flatMap termStream

end LinearCombination

end Groth16
