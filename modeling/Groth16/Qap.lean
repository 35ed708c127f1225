import Groth16.Circuit.ConstraintSystem
import Groth16.Domain.Basic

/-!
# Quadratic arithmetic programs

Row `j` of a constraint system is placed on the point `ω^j` of a domain. Every wire `i` then has
three polynomials `uᵢ`, `vᵢ`, `wᵢ` of degree below the size of the domain, whose values at the
points are the coefficients of the wire in the three combinations of the rows. A vector satisfies
all rows exactly if `(Σ zᵢ uᵢ)(Σ zᵢ vᵢ) - Σ zᵢ wᵢ` is a multiple of the vanishing polynomial.

Behind the constraint rows there is one row for each instance wire, with that wire as first factor
and zero elsewhere. They make the polynomials of the instance wires independent of all others.

* `numRows`, `domainFor`: how many points a system needs, and the domain that has them.
* `evaluateAt`: the polynomials of all wires at one point, through the Lagrange basis.
* `quotient`: the coefficients of the quotient by the vanishing polynomial, for a given vector.
-/

set_option autoImplicit false

namespace Groth16.Qap

variable {K : PrimeField}

/-- The number of rows a system occupies: its constraints and its instance wires. -/
def numRows (s : ConstraintSystem K) : Nat := s.numConstraints + s.numPublic + 1

/-- The smallest domain with a point for every row. -/
def domainFor (s : ConstraintSystem K) : Except DomainError (Domain K) :=
  Domain.ofSize K (numRows s)

/-! ## Wire polynomials at a point -/

/-- The polynomials of all wires at one point, and the vanishing polynomial there. -/
structure Evaluations (K : PrimeField) where
  /-- `uᵢ(τ)` by wire. -/
  u : Array (Fp K)
  /-- `vᵢ(τ)` by wire. -/
  v : Array (Fp K)
  /-- `wᵢ(τ)` by wire. -/
  w : Array (Fp K)
  /-- `τ^N - 1`. -/
  vanishing : Fp K

/-- Adds an amount to an entry; none past the end. -/
def addAt? (acc : Array (Fp K)) (i : Nat) (x : Fp K) : Option (Array (Fp K)) :=
  acc[i]?.map fun a => acc.setIfInBounds i (a + x)

/-- Adds `weight` times a combination to a vector of wires. -/
def addTerms? (weight : Fp K) (acc : Array (Fp K)) (a : LinearCombination K) :
    Option (Array (Fp K)) :=
  a.terms.foldlM (fun acc t => addAt? acc t.wire.index (weight * t.coeff)) acc

/-- The sum over rows of the row's combination times the row's Lagrange value. -/
def column? (part : Constraint K → LinearCombination K) (numWires : Nat) :
    List (Constraint K) → List (Fp K) → Option (Array (Fp K))
  | rows, lagrange =>
    (rows.zip lagrange).foldlM (fun acc r => addTerms? r.2 acc (part r.1))
      (Array.replicate numWires 0)

/-- Adds the Lagrange values of the instance rows to the entries of the instance wires. -/
def addInstance? (acc : Array (Fp K)) (lagrange : List (Fp K)) : Option (Array (Fp K)) :=
  (lagrange.zipIdx).foldlM (fun acc l => addAt? acc l.2 l.1) acc

/-- `uᵢ(τ)`, `vᵢ(τ)`, `wᵢ(τ)` for every wire `i`. A domain with too few points is a breach. -/
def evaluateAt (s : ConstraintSystem K) (d : Domain K) (tau : Fp K) :
    Outcome DomainError (Evaluations K) := do
  let lagrange ← d.lagrangeAt tau
  if lagrange.length < numRows s then Outcome.breach
  let rows := s.constraints.toList
  let instanceRows := (lagrange.drop s.numConstraints).take s.numInstance
  let u ← Outcome.require (column? (·.a) s.numWires rows lagrange)
  let u ← Outcome.require (addInstance? u instanceRows)
  let v ← Outcome.require (column? (·.b) s.numWires rows lagrange)
  let w ← Outcome.require (column? (·.c) s.numWires rows lagrange)
  return ⟨u, v, w, d.vanishingAt tau⟩

/-! ## The quotient -/

/-- A list as a vector of length `n`, filled up with zeros; none if it is too long. -/
def padded? (n : Nat) (xs : List (Fp K)) : Option (Array (Fp K)) :=
  if xs.length ≤ n then some (xs ++ List.replicate (n - xs.length) 0).toArray else none

/-- The values of the three combinations of every row, over a domain with `n` points. -/
def rowValues? (s : ConstraintSystem K) (n : Nat) (z : Array (Fp K)) :
    Option (Array (Fp K) × Array (Fp K) × Array (Fp K)) := do
  let rows ← s.constraints.toList.mapM fun r => r.values? z
  let known ← if s.numInstance ≤ z.size then some (z.toList.take s.numInstance) else none
  let zeros := List.replicate s.numInstance (0 : Fp K)
  let a ← padded? n (rows.map (·.1) ++ known)
  let b ← padded? n (rows.map (·.2.1) ++ zeros)
  let c ← padded? n (rows.map (·.2.2) ++ zeros)
  return (a, b, c)

/-- How many coefficients a quotient has over a domain of size `n`. -/
def quotientLength (n : Nat) : Nat := max (n - 1) 1

/-- From values over the subgroup to values over the coset. -/
def toCoset (d : Domain K) (a : Array (Fp K)) : Outcome DomainError (Array (Fp K)) := do
  d.cosetNtt (← d.intt a)

/-- The coefficients of `(A·B - C) / (X^N - 1)`, where `A`, `B` and `C` interpolate the rows on the
vector. If the vector does not satisfy the system there is a remainder, and the result means
nothing. -/
def quotient (s : ConstraintSystem K) (d : Domain K) (z : Array (Fp K)) :
    Outcome DomainError (Array (Fp K)) := do
  let (a, b, c) ← Outcome.require (rowValues? s d.size z)
  let a ← toCoset d a
  let b ← toCoset d b
  let c ← toCoset d c
  match d.vanishingOnCoset.inverse? with
  | none => Outcome.report .shiftInDomain
  | some inv =>
    let h := Array.zipWith (fun ab c => (ab - c) * inv) (Array.zipWith (· * ·) a b) c
    let h ← d.cosetIntt h
    return h.take (quotientLength d.size)

end Groth16.Qap
