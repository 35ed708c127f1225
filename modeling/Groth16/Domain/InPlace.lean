import Groth16.Domain.Basic

/-!
# Transforms in place

A transform is written over the vector that it is given, and an error may come after a part of it is
written.  What a caller then finds in the vector is neither what it was nor its transform.

* `InPlace`: a computation that writes over a vector.
* `InPlace.callOn`: its answer, and the vector that it leaves.
* `InPlace.written`: what a call that succeeds has written.
* `Domain.nttInPlace`, `inttInPlace`, `cosetNttInPlace`, `cosetInttInPlace`: the four transforms.
* `Domain.transforms`: the four, each beside the transform that it writes.
* `Domain.written_of_mem_transforms`: what a call that succeeds has written is this transform.
* `Domain.callOn_of_size_ne`: on a vector of another length than the domain, nothing is written.
-/

set_option autoImplicit false

namespace Groth16

variable {K : PrimeField}

/-- A computation that may write over a vector of its caller, and may fail after it has. -/
abbrev InPlace (K : PrimeField) := ExceptT (Failure DomainError) (StateM (Array (Fp K))) Unit

namespace InPlace

/-- Writes what the function makes of the vector. A vector that it makes nothing of is a breach. -/
def write (f : Array (Fp K) → Option (Array (Fp K))) : InPlace K := do
  match f (← get) with
  | some b => set b
  | none => throw .breach

/-- The answer of a call on a vector, and the vector that the call leaves. -/
def callOn (x : InPlace K) (a : Array (Fp K)) : Outcome DomainError Unit × Array (Fp K) :=
  x.run.run a

/-- What a call on a vector has written, if it succeeds. -/
def written (x : InPlace K) (a : Array (Fp K)) : Outcome DomainError (Array (Fp K)) :=
  (x.callOn a).1.map fun _ => (x.callOn a).2

/-- The second of two steps goes on with the vector that the first leaves, if that succeeds. -/
theorem callOn_seq (x y : InPlace K) (a : Array (Fp K)) :
    callOn (do x; y) a =
      match x.callOn a with
      | (.ok (), b) => y.callOn b
      | (.error e, b) => (.error e, b) := by
  rw [callOn, ExceptT.run_bind, StateT.run_bind, callOn]
  rcases x.run.run a with ⟨_ | ⟨⟩, b⟩ <;> rfl

theorem callOn_write (f : Array (Fp K) → Option (Array (Fp K))) (a : Array (Fp K)) :
    (write f).callOn a =
      match f a with
      | some b => (.ok (), b)
      | none => (Outcome.breach, a) := by
  change (match f a with
    | some b => (set b : InPlace K)
    | none => throw Failure.breach).run.run a = _
  cases f a <;> rfl

/-- A single step writes what its function gives. -/
theorem written_write (f : Array (Fp K) → Option (Array (Fp K))) (a : Array (Fp K)) :
    (write f).written a = Outcome.require (f a) := by
  rw [written, callOn_write]
  cases f a <;> rfl

/-- A step before others hands them what its function gives. -/
theorem written_write_seq (f : Array (Fp K) → Option (Array (Fp K))) (y : InPlace K)
    (a : Array (Fp K)) :
    written (do write f; y) a = Outcome.require (f a) >>= y.written := by
  rw [written, callOn_seq, callOn_write]
  cases f a <;> rfl

end InPlace

namespace Domain

/-- Goes on with a vector of the length of the domain. -/
def onLength (d : Domain K) (next : InPlace K) : InPlace K := do
  let a ← get
  if a.size ≠ d.size then throw (.reported (.badLength a.size d.size)) else next

/-- From coefficients to the values over the subgroup. -/
def nttInPlace (d : Domain K) : InPlace K := d.onLength (.write (transform? d.root))

/-- From the values over the subgroup to coefficients. -/
def inttInPlace (d : Domain K) : InPlace K := d.onLength (.write (inverseTransform? d.root))

/-- From coefficients to the values over the coset: first the coefficients are scaled. -/
def cosetNttInPlace (d : Domain K) : InPlace K := d.onLength do
  InPlace.write fun a => some (scaleByPowers d.shift a)
  InPlace.write (transform? d.root)

/-- From the values over the coset to coefficients: the shift is inverted only after the values have
been written over. -/
def cosetInttInPlace (d : Domain K) : InPlace K := d.onLength do
  InPlace.write (inverseTransform? d.root)
  match d.shift.inverse? with
  | some shiftInv => InPlace.write fun b => some (scaleByPowers shiftInv b)
  | none => throw (.reported .shiftInDomain)

variable {d : Domain K} {a : Array (Fp K)} {next : InPlace K}

/-- On a vector of another length nothing is written. -/
theorem callOn_onLength_of_ne (h : a.size ≠ d.size) :
    (d.onLength next).callOn a = (Outcome.report (.badLength a.size d.size), a) := by
  change (if a.size ≠ d.size then (throw _ : InPlace K) else next).run.run a = _
  rw [if_pos h]
  rfl

theorem callOn_onLength_of_eq (h : a.size = d.size) :
    (d.onLength next).callOn a = next.callOn a := by
  change (if a.size ≠ d.size then (throw _ : InPlace K) else next).run.run a = _
  rw [if_neg (Decidable.not_not.2 h)]
  rfl

/-- The length is checked in place as it is for the transforms. -/
theorem written_onLength {after : Array (Fp K) → Outcome DomainError (Array (Fp K))}
    (h : next.written a = after a) : (d.onLength next).written a = d.ofLength a after := by
  rw [ofLength]
  split
  · next hne =>
    rw [InPlace.written, callOn_onLength_of_ne hne]
    rfl
  · next heq =>
    rw [InPlace.written, callOn_onLength_of_eq (Decidable.not_not.1 heq), ← h]
    rfl

theorem written_nttInPlace (d : Domain K) (a : Array (Fp K)) : d.nttInPlace.written a = d.ntt a :=
  written_onLength (InPlace.written_write _ a)

theorem written_inttInPlace (d : Domain K) (a : Array (Fp K)) :
    d.inttInPlace.written a = d.intt a :=
  written_onLength (InPlace.written_write _ a)

theorem written_cosetNttInPlace (d : Domain K) (a : Array (Fp K)) :
    d.cosetNttInPlace.written a = d.cosetNtt a := by
  refine written_onLength ?_
  rw [InPlace.written_write_seq]
  exact InPlace.written_write _ _

theorem written_cosetInttInPlace (d : Domain K) (a : Array (Fp K)) :
    d.cosetInttInPlace.written a = d.cosetIntt a := by
  refine written_onLength ?_
  rw [InPlace.written_write_seq]
  cases d.shift.inverse? <;> rfl

/-! ## All four -/

/-- The four transforms in place, each beside the transform that it writes. -/
def transforms (d : Domain K) :
    List (InPlace K × (Array (Fp K) → Outcome DomainError (Array (Fp K)))) :=
  [(d.nttInPlace, d.ntt), (d.inttInPlace, d.intt), (d.cosetNttInPlace, d.cosetNtt),
    (d.cosetInttInPlace, d.cosetIntt)]

variable {t : InPlace K × (Array (Fp K) → Outcome DomainError (Array (Fp K)))}

/-- Each of them writes what its transform gives. -/
theorem written_of_mem_transforms (h : t ∈ d.transforms) (a : Array (Fp K)) :
    t.1.written a = t.2 a := by
  simp only [transforms, List.mem_cons, List.not_mem_nil, or_false] at h
  rcases h with rfl | rfl | rfl | rfl
  · exact written_nttInPlace d a
  · exact written_inttInPlace d a
  · exact written_cosetNttInPlace d a
  · exact written_cosetInttInPlace d a

/-- On a vector of another length than the domain, each of them reports the two lengths and leaves
the vector as it is. -/
theorem callOn_of_size_ne (h : t ∈ d.transforms) (size : a.size ≠ d.size) :
    t.1.callOn a = (Outcome.report (.badLength a.size d.size), a) := by
  simp only [transforms, List.mem_cons, List.not_mem_nil, or_false] at h
  rcases h with rfl | rfl | rfl | rfl <;> exact callOn_onLength_of_ne size

end Domain

end Groth16
