/-!
# Outcomes

A computation of this library ends in one of three ways: with a value, with an error that it
reports to its caller, or because its caller broke a precondition (an index past the end of a
vector, a wire of another circuit). The last two are kept apart: an error is part of the interface
of an operation, a breach is not, and "never a breach" is what the safety statements say.

* `Failure ε`: a reported error of type `ε`, or a breach.
* `Outcome ε α`: a value of type `α`, or a failure. It is an `Except`, so `do` blocks and the
  lemmas on `Except` apply to it.
-/

set_option autoImplicit false

namespace Groth16

universe u v w

/-- Why a computation has no value. -/
inductive Failure (ε : Type u) where
  /-- An error that the operation reports. -/
  | reported (cause : ε)
  /-- The caller broke a precondition. -/
  | breach
  deriving Repr, DecidableEq

/-- Turns the cause of a reported error into a cause of another type. -/
def Failure.map {ε : Type u} {ε' : Type v} (f : ε → ε') : Failure ε → Failure ε'
  | .reported cause => .reported (f cause)
  | .breach => .breach

/-- A value, a reported error or a breach. -/
abbrev Outcome (ε : Type u) (α : Type v) := Except (Failure ε) α

namespace Outcome

variable {ε : Type u} {ε' : Type v} {α : Type w}

/-- The outcome that reports `cause`. -/
def report (cause : ε) : Outcome ε α := .error (.reported cause)

/-- The outcome of a broken precondition. -/
def breach : Outcome ε α := .error .breach

/-- A result that may be an error, as an outcome without a breach. -/
def ofExcept : Except ε α → Outcome ε α
  | .ok a => .ok a
  | .error cause => report cause

/-- A value whose absence is a breach. -/
def require : Option α → Outcome ε α
  | some a => .ok a
  | none => breach

/-- Reports every error of `x` as an error of another type. -/
def mapError (f : ε → ε') (x : Outcome ε α) : Outcome ε' α :=
  Except.mapError (Failure.map f) x

@[simp] theorem require_some (a : α) : (require (some a) : Outcome ε α) = .ok a := rfl

@[simp] theorem require_none : (require none : Outcome ε α) = breach := rfl

@[simp] theorem mapError_ok (f : ε → ε') (a : α) : mapError f (.ok a) = .ok a := rfl

@[simp] theorem mapError_report (f : ε → ε') (cause : ε) :
    (mapError f (report cause) : Outcome ε' α) = report (f cause) := rfl

@[simp] theorem mapError_breach (f : ε → ε') : (mapError f (breach : Outcome ε α)) = breach := rfl

end Outcome

end Groth16
