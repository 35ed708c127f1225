import Groth16.Domain.Transform
import Groth16.Hash.Digest
import Groth16.Outcome

/-!
# Evaluation domains

A domain is the multiplicative subgroup `H = {1, ω, …, ω^(N-1)}` of a power-of-two size `N`,
together with a shift `g` whose coset `g·H` avoids `H`. Vectors over the domain are the values of a
polynomial of degree below `N` at its points.

* `Domain`: size, root of unity and shift.
* `Domain.ofSize`: the smallest domain with at least a given number of points.
* `Domain.validate`: the check that the three parts fit together.
* `Domain.vanishingAt`: the polynomial `X^N - 1` at a point.
* `Domain.lagrangeAt`: the Lagrange basis at a point outside of `H`.
* `Domain.ntt`, `intt`, `cosetNtt`, `cosetIntt`: coefficients to values and back, over `H` and over
  the coset.
* `Domain.digest`: a hash of the three parts.
-/

set_option autoImplicit false

namespace Groth16

/-- A multiplicative subgroup of a power-of-two size, and a shift of it. -/
structure Domain (K : PrimeField) where
  /-- The number of points. -/
  size : Nat
  /-- The generator of the subgroup. -/
  root : Fp K
  /-- The shift of the coset. -/
  shift : Fp K
  deriving DecidableEq

/-- Why there is no domain, or no answer from it. -/
inductive DomainError where
  /-- A domain has at least one point. -/
  | emptySize
  /-- The field has no subgroup of that size. -/
  | tooLarge (size : Nat)
  /-- The root is not a root of unity of the order of the size. -/
  | rootPowerNotOne
  /-- The root has a smaller order. -/
  | rootNotPrimitive
  /-- The coset is the subgroup itself. -/
  | shiftInDomain
  /-- The vector has another length than the domain. -/
  | badLength (length size : Nat)
  /-- The Lagrange basis is asked for at a point of the subgroup. -/
  | pointInDomain
  deriving DecidableEq

/-- The text of the error. -/
def DomainError.message : DomainError → String
  | .emptySize => "domain size must be positive"
  | .tooLarge size => s!"domain of size {size} exceeds the field's two-adicity"
  | .rootPowerNotOne => "omega^N != 1"
  | .rootNotPrimitive => "omega is not primitive: omega^(N/2) == 1"
  | .shiftInDomain => "coset shift lies in H"
  | .badLength length size => s!"vector length {length} does not match domain size {size}"
  | .pointInDomain => "evaluation point lies in H"

namespace Domain

variable {K : PrimeField}

/-- The value of `X^N - 1` at a point. -/
def vanishingAt (d : Domain K) (z : Fp K) : Fp K := z ^ d.size - 1

/-- The point is one of the subgroup. -/
def contains (d : Domain K) (z : Fp K) : Bool := d.vanishingAt z = 0

/-- The value of `X^N - 1` at the points of the coset. -/
def vanishingOnCoset (d : Domain K) : Fp K := d.vanishingAt d.shift

/-- The points of the subgroup, `1, ω, …, ω^(N-1)`. -/
def elements (d : Domain K) : List (Fp K) := powers 1 d.root d.size

/-- So many elements of 32 bytes have addresses, and no more. -/
def maxListed : Nat := 1 <<< 58 - 1

/-- The points of the subgroup as a list that is held; more points than have addresses are a
breach. No domain of a field of this library has so many. -/
def listElements (d : Domain K) : Outcome DomainError (List (Fp K)) :=
  if d.size ≤ maxListed then .ok d.elements else .breach

/-! ## Construction -/

/-- Passes if the root has exactly the order of the size and the shift is outside of the
subgroup. -/
def validate (d : Domain K) : Except DomainError Unit :=
  if d.size = 0 then .error .emptySize
  else if d.root ^ d.size ≠ 1 then .error .rootPowerNotOne
  else if 1 < d.size ∧ d.root ^ (d.size / 2) = 1 then .error .rootNotPrimitive
  else if d.contains d.shift then .error .shiftInDomain
  else .ok ()

/-- The least exponent of two whose power is at least `n`. -/
def sizeExponent (n : Nat) : Nat := if n ≤ 1 then 0 else (n - 1).log2 + 1

/-- Sizes are numbers of at most this many bits. -/
def maxSizeBits : Nat := 64

/-- The smallest domain with at least `minSize` points, shifted by the generator of the field. -/
def ofSize (K : PrimeField) (minSize : Nat) : Except DomainError (Domain K) :=
  if minSize = 0 then .error .emptySize
  else
    let k := sizeExponent minSize
    if maxSizeBits ≤ k then .error (.tooLarge minSize)
    else match K.rootOfUnity? k with
      | none => .error (.tooLarge (1 <<< k))
      | some root =>
        let d : Domain K := ⟨1 <<< k, root, Fp.ofNat K K.generator⟩
        d.validate.map fun _ => d

/-! ## The Lagrange basis -/

/-- The values at `τ` of the polynomials that are one at one point of the subgroup and zero at the
others: `ω^i · (τ^N - 1) / (N · (τ - ω^i))`. -/
def lagrangeAt (d : Domain K) (tau : Fp K) : Outcome DomainError (List (Fp K)) :=
  let z := d.vanishingAt tau
  if z = 0 then .report .pointInDomain
  else d.listElements.map fun ws =>
    ws.map fun w => w * z * (Fp.ofNat K d.size * (tau - w)).inverseOrZero

/-! ## Transforms -/

/-- Passes a vector of the length of the domain on. -/
def ofLength (d : Domain K) (a : Array (Fp K))
    (next : Array (Fp K) → Outcome DomainError (Array (Fp K))) :
    Outcome DomainError (Array (Fp K)) :=
  if a.size ≠ d.size then .report (.badLength a.size d.size) else next a

/-- From coefficients to the values over the subgroup. -/
def ntt (d : Domain K) (a : Array (Fp K)) : Outcome DomainError (Array (Fp K)) :=
  d.ofLength a fun a => .require (transform? d.root a)

/-- From the values over the subgroup to coefficients. -/
def intt (d : Domain K) (a : Array (Fp K)) : Outcome DomainError (Array (Fp K)) :=
  d.ofLength a fun a => .require (inverseTransform? d.root a)

/-- From coefficients to the values over the coset. -/
def cosetNtt (d : Domain K) (a : Array (Fp K)) : Outcome DomainError (Array (Fp K)) :=
  d.ofLength a fun a => .require (transform? d.root (scaleByPowers d.shift a))

/-- From the values over the coset to coefficients. -/
def cosetIntt (d : Domain K) (a : Array (Fp K)) : Outcome DomainError (Array (Fp K)) :=
  d.ofLength a fun a => do
    let b ← Outcome.require (inverseTransform? d.root a)
    match d.shift.inverse? with
    | some shiftInv => return scaleByPowers shiftInv b
    | none => Outcome.report .shiftInDomain

/-! ## Digest -/

/-- The hash of the size and the two elements, under a label. -/
def digest (d : Domain K) : Digest :=
  .of (Bytes.ofText "ZKR1CS.domain.v1" ++ Bytes.bigEndian 8 d.size ++ d.root.toBytes ++
    d.shift.toBytes)

end Domain

end Groth16
