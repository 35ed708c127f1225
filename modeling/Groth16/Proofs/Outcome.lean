import Groth16.Outcome

/-!
# Outcomes that are values

Most computations of the protocol are sequences of steps that may fail.  That such a sequence ends
with a value means that every step does.

* `Outcome.bind_eq_ok`, `map_eq_ok`: a sequence of two steps.
* `Outcome.require_eq_ok`, `ofExcept_eq_ok`, `mapError_eq_ok`, `ite_report_eq_ok`: single steps.
* `Outcome.bind_ne_breach`, `ofExcept_ne_breach`: what cannot break a precondition.
-/

set_option autoImplicit false

namespace Groth16.Outcome

universe u v w

variable {ε : Type u} {ε' : Type v}

theorem ok_bind {α β : Type w} (a : α) (f : α → Except ε β) : (Except.ok a >>= f) = f a := rfl

theorem bind_eq_ok {α β : Type w} {x : Except ε α} {f : α → Except ε β} {b : β} :
    x >>= f = .ok b ↔ ∃ a, x = .ok a ∧ f a = .ok b := by
  cases x with
  | error e => simp [bind, Except.bind]
  | ok a => simp [bind, Except.bind]

theorem map_eq_ok {α β : Type w} {x : Except ε α} {f : α → β} {b : β} :
    f <$> x = .ok b ↔ ∃ a, x = .ok a ∧ f a = b := by
  cases x with
  | error e => simp [Functor.map, Except.map]
  | ok a => simp [Functor.map, Except.map]

theorem require_eq_ok {α : Type w} {x : Option α} {a : α} :
    (require x : Outcome ε α) = .ok a ↔ x = some a := by
  cases x with
  | none => simp [breach]
  | some b => simp

theorem ofExcept_eq_ok {α : Type w} {x : Except ε α} {a : α} : ofExcept x = .ok a ↔ x = .ok a := by
  cases x with
  | error e => simp [ofExcept, report]
  | ok b => simp [ofExcept]

theorem ofExcept_mapError {α : Type w} (f : ε → ε') (x : Except ε α) :
    ofExcept (x.mapError f) = mapError f (ofExcept x) := by
  cases x with
  | error e => rfl
  | ok a => rfl

theorem mapError_eq_ok {α : Type w} {f : ε → ε'} {x : Outcome ε α} {a : α} :
    mapError f x = .ok a ↔ x = .ok a := by
  cases x with
  | error e => exact ⟨nofun, nofun⟩
  | ok b => simp

theorem ite_report_eq_ok {α : Type w} {c : Prop} [Decidable c] {cause : ε} {x : Outcome ε α}
    {a : α} : (if c then report cause else x) = .ok a ↔ ¬ c ∧ x = .ok a := by
  split
  · next h => exact iff_of_false nofun fun hx => hx.1 h
  · next h => exact (and_iff_right h).symm

theorem ofExcept_ne_breach {α : Type w} (x : Except ε α) : ofExcept x ≠ breach := by
  cases x with
  | error e => simp [ofExcept, report, breach]
  | ok b => simp [ofExcept, breach]

theorem ite_report_ne_breach {α : Type w} {c : Prop} [Decidable c] {cause : ε} {x : Outcome ε α}
    (h : x ≠ breach) : (if c then report cause else x) ≠ breach := by
  split
  · simp [report, breach]
  · exact h

theorem bind_ne_breach {α β : Type w} {x : Outcome ε α} {f : α → Outcome ε β} (hx : x ≠ breach)
    (hf : ∀ a, x = .ok a → f a ≠ breach) : x >>= f ≠ breach := by
  cases x with
  | error e => exact fun h => hx (congrArg Except.error (Except.error.inj h))
  | ok a => exact hf a rfl

end Groth16.Outcome
