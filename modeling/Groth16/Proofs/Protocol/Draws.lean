import Groth16.Protocol.CircuitKeys

/-!
# Computations that draw

A computation that draws blocks ends with a value or with an error, and leaves the source in some
state.  Here is what a run of a composed computation says about the runs of its parts.

* `Draws.runOn`: a run on a state of the source.
* `Draws.runOn_bind_of_ok`, `Draws.runOn_bind_of_error`: a sequence goes on after a value, and stops
  at an error; `Draws.runOn_bind_eq_ok` is the way back from a value.
* `Draws.runOn_mapError_eq_ok`, `Draws.runOn_map`, `Draws.runOn_ofOutcome`: what draws nothing leaves
  the source as it is.
* `Draws.runOn_sample`, `Draws.runOn_sample_of_error`: the draw of one scalar.
-/

set_option autoImplicit false

namespace Groth16.Draws

variable {K : PrimeField} {σ ε ε' α β : Type}

/-- What a computation gives on a state of the source, and the state afterwards. -/
def runOn (x : Draws σ ε α) (state : σ) : Except ε α × σ := x.run.run state

/-! ## Composed computations -/

theorem runOn_bind_of_ok {x : Draws σ ε α} {f : α → Draws σ ε β} {state state' : σ} {a : α}
    (h : x.runOn state = (.ok a, state')) : (x >>= f).runOn state = (f a).runOn state' := by
  rw [runOn] at h ⊢
  rw [ExceptT.run_bind, StateT.run_bind, h]
  rfl

theorem runOn_bind_of_error {x : Draws σ ε α} {f : α → Draws σ ε β} {state state' : σ} {e : ε}
    (h : x.runOn state = (.error e, state')) : (x >>= f).runOn state = (.error e, state') := by
  rw [runOn] at h ⊢
  rw [ExceptT.run_bind, StateT.run_bind, h]
  rfl

/-- A sequence of two computations gives a value if both do. -/
theorem runOn_bind_eq_ok {x : Draws σ ε α} {f : α → Draws σ ε β} {state state' : σ} {b : β} :
    (x >>= f).runOn state = (.ok b, state') ↔
      ∃ a between, x.runOn state = (.ok a, between) ∧ (f a).runOn between = (.ok b, state') := by
  constructor
  · intro h
    rcases hx : x.runOn state with ⟨e | a, between⟩
    · rw [runOn_bind_of_error hx] at h
      cases h
    · exact ⟨a, between, rfl, (runOn_bind_of_ok hx).symm.trans h⟩
  · rintro ⟨a, between, hx, hf⟩
    rw [runOn_bind_of_ok hx, hf]

theorem runOn_map (f : α → β) (x : Draws σ ε α) (state : σ) :
    (f <$> x).runOn state = ((x.runOn state).1.map f, (x.runOn state).2) := by
  rcases hx : x.runOn state with ⟨e | a, left⟩
  · rw [← bind_pure_comp, runOn_bind_of_error hx]
    rfl
  · rw [← bind_pure_comp, runOn_bind_of_ok hx]
    rfl

/-- The change of errors leaves a run with a value as it is. -/
theorem runOn_mapError_eq_ok {x : Draws σ (Failure ε) α} {f : ε → ε'} {state state' : σ} {a : α} :
    (x.mapError f).runOn state = (.ok a, state') ↔ x.runOn state = (.ok a, state') := by
  rw [runOn, runOn, mapError, ExceptT.run_adapt, StateT.run_map]
  rcases x.run.run state with ⟨e | a', between⟩
  · constructor
    · intro h
      cases h
    · intro h
      cases h
  · constructor
    · intro h
      cases h
      rfl
    · intro h
      cases h
      rfl

theorem runOn_ofOutcome (x : Outcome ε α) (state : σ) :
    (Draws.ofOutcome x : Draws σ (Failure ε) α).runOn state = (x, state) := rfl

/-! ## One scalar -/

section
variable [RandomSource σ] {failed : SourceFailure → ε} {state state' : σ}

theorem runOn_sample {b : Block} (h : RandomSource.next state = (.ok b, state')) :
    (Fp.sample K failed).runOn state = (.ok (Fp.ofBlock K b), state') := by
  have hblock : (drawBlock failed).runOn state = (.ok b, state') := by
    change drawBlock failed state = _
    unfold drawBlock
    rw [h]
  rw [Fp.sample, runOn_bind_of_ok hblock]
  rfl

theorem runOn_sample_of_error {cause : SourceFailure}
    (h : RandomSource.next state = (.error cause, state')) :
    (Fp.sample K failed).runOn state = (.error (failed cause), state') := by
  have hblock : (drawBlock failed).runOn state = (.error (failed cause), state') := by
    change drawBlock failed state = _
    unfold drawBlock
    rw [h]
  rw [Fp.sample, runOn_bind_of_error hblock]

end

end Groth16.Draws
