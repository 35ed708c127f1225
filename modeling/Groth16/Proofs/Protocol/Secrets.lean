import Mathlib.Algebra.Order.Group.Nat
import Groth16.Proofs.Protocol.Draws

/-!
# How secrets are drawn

A source may answer its requests with any blocks and any failures, and a block may stand for zero
without being zero.  The secrets of a setup are drawn one after another, each from where the last
one was found: the first residue that is not zero is taken, a failure on the way ends the setup, and
so do eight zeros in a row.  There is no other way for the draws to end.

* `RandomSource.answer`, `RandomSource.after`: the answers of a source, by number, and its states.
* `residueAt`: the residue of an answer.
* `FirstNonzero`, `FailsAt`, `ZerosFrom`: how the draw of one secret ends, from a request on.
* `DrawnFrom`: some secrets are drawn, one after another.
* `ToxicWaste.runOn_draw_of_first`, …: the draw of one secret ends like that.
* `ToxicWaste.sample_cases`, `ToxicWaste.runOn_sample_of_drawn`, `ToxicWaste.runOn_sample_of_short`:
  all five are drawn, or the draw of one of them ends without.
-/

set_option autoImplicit false

namespace Groth16

variable {K : PrimeField} {σ : Type} [RandomSource σ]

/-! ## Answers -/

namespace RandomSource

/-- The state after a number of requests. -/
def after (state : σ) : Nat → σ
  | 0 => state
  | n + 1 => (next (after state n)).2

/-- The answer to a request, the first of which has number zero. -/
def answer (state : σ) (n : Nat) : Except SourceFailure Block := (next (after state n)).1

theorem next_after (state : σ) (n : Nat) :
    next (after state n) = (answer state n, after state (n + 1)) := rfl

end RandomSource

open RandomSource (answer after)

/-- The residue that a request is answered with. -/
def residueAt (K : PrimeField) (state : σ) (n : Nat) : Except SourceFailure (Fp K) :=
  (answer state n).map (Fp.ofBlock K)

theorem runOn_sample_of_residue {ε : Type} {failed : SourceFailure → ε} {state : σ} {n : Nat}
    {a : Fp K} (h : residueAt K state n = .ok a) :
    (Fp.sample K failed).runOn (after state n) = (.ok a, after state (n + 1)) := by
  rcases hanswer : answer state n with cause | block
  · rw [residueAt, hanswer] at h
    cases h
  · rw [residueAt, hanswer] at h
    cases h
    refine Draws.runOn_sample ?_
    rw [RandomSource.next_after, hanswer]

theorem runOn_sample_of_residue_error {ε : Type} {failed : SourceFailure → ε} {state : σ} {n : Nat}
    {cause : SourceFailure} (h : residueAt K state n = .error cause) :
    (Fp.sample K failed).runOn (after state n) = (.error (failed cause), after state (n + 1)) := by
  rcases hanswer : answer state n with cause' | block
  · rw [residueAt, hanswer] at h
    cases h
    refine Draws.runOn_sample_of_error ?_
    rw [RandomSource.next_after, hanswer]
  · rw [residueAt, hanswer] at h
    cases h

/-! ## One secret -/

/-- The residues are zero, from request `n` on, for `k` requests. -/
def ZerosFrom (K : PrimeField) (state : σ) (n k : Nat) : Prop :=
  ∀ i < k, residueAt K state (n + i) = .ok 0

/-- From request `n` on, `a` is the first residue that is not zero, after `k` zeros. -/
structure FirstNonzero (state : σ) (n k : Nat) (a : Fp K) : Prop where
  /-- It is found in time. -/
  inTime : k < Fp.maxZeroDraws
  /-- Zeros come before it. -/
  zeros : ZerosFrom K state n k
  /-- It is found. -/
  found : residueAt K state (n + k) = .ok a
  /-- It is not zero. -/
  ne_zero : a ≠ 0

/-- From request `n` on, there is a failure after `k` zeros, before there are too many of them. -/
structure FailsAt (K : PrimeField) (state : σ) (n k : Nat) (cause : SourceFailure) : Prop where
  /-- There are not too many zeros before it. -/
  inTime : k < Fp.maxZeroDraws
  /-- Zeros come before it. -/
  zeros : ZerosFrom K state n k
  /-- There is the failure. -/
  failed : residueAt K state (n + k) = .error cause

/-- A number of zeros, and what ends them: every search among `tries` residues ends with one that is
not zero, with a failure, or with zeros only. -/
theorem exists_end_of_zeros (K : PrimeField) (state : σ) (n tries : Nat) :
    (∃ k a, k < tries ∧ ZerosFrom K state n k ∧ residueAt K state (n + k) = .ok a ∧ a ≠ 0) ∨
      (∃ k cause, k < tries ∧ ZerosFrom K state n k ∧ residueAt K state (n + k) = .error cause) ∨
      ZerosFrom K state n tries := by
  induction tries with
  | zero => exact .inr (.inr fun i hi => absurd hi (Nat.not_lt_zero i))
  | succ tries ih =>
    rcases ih with ⟨k, a, hk, h⟩ | ⟨k, cause, hk, h⟩ | zeros
    · exact .inl ⟨k, a, hk.trans (Nat.lt_succ_self _), h⟩
    · exact .inr (.inl ⟨k, cause, hk.trans (Nat.lt_succ_self _), h⟩)
    · rcases hresidue : residueAt K state (n + tries) with cause | a
      · exact .inr (.inl ⟨tries, cause, Nat.lt_succ_self _, zeros, hresidue⟩)
      · by_cases ha : a = 0
        · refine .inr (.inr fun i hi => ?_)
          rcases Nat.lt_succ_iff_lt_or_eq.1 hi with hi | rfl
          · exact zeros i hi
          · rw [hresidue, ha]
        · exact .inl ⟨tries, a, Nat.lt_succ_self _, zeros, hresidue, ha⟩

/-- Zeros are drawn and dropped. -/
theorem runOn_sampleNonzeroWithin_of_zeros {ε : Type} {failed : SourceFailure → ε} {state : σ}
    {n k : Nat} (zeros : ZerosFrom K state n k) (tries : Nat) :
    (Fp.sampleNonzeroWithin K failed (k + tries)).runOn (after state n) =
      (Fp.sampleNonzeroWithin K failed tries).runOn (after state (n + k)) := by
  induction k generalizing n with
  | zero => rw [Nat.zero_add, Nat.add_zero]
  | succ k ih =>
    have hfirst : residueAt K state n = .ok 0 := zeros 0 (Nat.succ_pos k)
    have hrest : ZerosFrom K state (n + 1) k := by
      intro i hi
      rw [Nat.add_assoc, Nat.add_comm 1]
      exact zeros (i + 1) (Nat.succ_lt_succ hi)
    rw [Nat.add_right_comm, Fp.sampleNonzeroWithin,
      Draws.runOn_bind_of_ok (runOn_sample_of_residue hfirst), if_pos rfl, ih hrest, Nat.add_assoc,
      Nat.add_comm 1]

namespace ToxicWaste

theorem runOn_draw_of_first {state : σ} {n k : Nat} {a : Fp K} (h : FirstNonzero state n k a) :
    (draw K).runOn (after state n) = (.ok a, after state (n + k + 1)) := by
  obtain ⟨tries, htries⟩ := Nat.exists_eq_add_of_lt h.inTime
  have hsample : (Fp.sampleNonzero K fun e => Failure.reported (SetupError.randomness e)).runOn
      (after state n) = (.ok (some a), after state (n + k + 1)) := by
    rw [Fp.sampleNonzero, htries, Nat.add_assoc, runOn_sampleNonzeroWithin_of_zeros h.zeros,
      Fp.sampleNonzeroWithin, Draws.runOn_bind_of_ok (runOn_sample_of_residue h.found),
      if_neg h.ne_zero]
    rfl
  rw [draw, Draws.runOn_bind_of_ok hsample]
  rfl

theorem runOn_draw_of_fails {state : σ} {n k : Nat} {cause : SourceFailure}
    (h : FailsAt K state n k cause) :
    (draw K).runOn (after state n) =
      (Outcome.report (.randomness cause), after state (n + k + 1)) := by
  obtain ⟨tries, htries⟩ := Nat.exists_eq_add_of_lt h.inTime
  have hsample : (Fp.sampleNonzero K fun e => Failure.reported (SetupError.randomness e)).runOn
      (after state n) = (.error (.reported (.randomness cause)), after state (n + k + 1)) := by
    rw [Fp.sampleNonzero, htries, Nat.add_assoc, runOn_sampleNonzeroWithin_of_zeros h.zeros,
      Fp.sampleNonzeroWithin, Draws.runOn_bind_of_error (runOn_sample_of_residue_error h.failed)]
  rw [draw, Draws.runOn_bind_of_error hsample]
  rfl

theorem runOn_draw_of_zeros {state : σ} {n : Nat} (h : ZerosFrom K state n Fp.maxZeroDraws) :
    (draw K).runOn (after state n) =
      (Outcome.report (.degenerate .onlyZeros), after state (n + Fp.maxZeroDraws)) := by
  have hsample : (Fp.sampleNonzero K fun e => Failure.reported (SetupError.randomness e)).runOn
      (after state n) = (.ok none, after state (n + Fp.maxZeroDraws)) :=
    runOn_sampleNonzeroWithin_of_zeros h 0
  rw [draw, Draws.runOn_bind_of_ok hsample]
  rfl

end ToxicWaste

/-! ## Five secrets -/

/-- From request `n` on, the secrets are drawn one after another; the next request is number `m`. -/
inductive DrawnFrom (state : σ) : Nat → List (Fp K) → Nat → Prop where
  /-- Nothing is drawn. -/
  | nil (n : Nat) : DrawnFrom state n [] n
  /-- A secret is drawn, and the next ones behind it. -/
  | cons {n k m : Nat} {a : Fp K} {as : List (Fp K)} (first : FirstNonzero state n k a)
      (rest : DrawnFrom state (n + k + 1) as m) : DrawnFrom state n (a :: as) m

theorem DrawnFrom.ne_zero {state : σ} {n m : Nat} {as : List (Fp K)}
    (h : DrawnFrom state n as m) : ∀ a ∈ as, a ≠ 0 := by
  induction h with
  | nil n => simp
  | cons first _ ih => exact List.forall_mem_cons.2 ⟨first.ne_zero, ih⟩

namespace ToxicWaste

/-- How many secrets there are. -/
def count : Nat := 5

/-- The secrets, in the order in which they are drawn. -/
def toList (t : ToxicWaste K) : List (Fp K) := [t.tau, t.alpha, t.beta, t.gamma, t.delta]

theorem toList_injective : Function.Injective (toList (K := K)) := by
  intro t u h
  cases t
  cases u
  simpa [toList] using h

theorem exists_toList {as : List (Fp K)} (h : as.length = count) :
    ∃ t : ToxicWaste K, t.toList = as := by
  match as, h with
  | [tau, alpha, beta, gamma, delta], _ => exact ⟨⟨tau, alpha, beta, gamma, delta⟩, rfl⟩

/-- A number of secrets. -/
def drawMany (K : PrimeField) : Nat → Draws σ (Failure SetupError) (List (Fp K))
  | 0 => return []
  | n + 1 => do
    let a ← draw K
    let as ← drawMany K n
    return a :: as

/-- Five secrets are drawn one after another. -/
theorem toList_map_sample :
    toList <$> (sample K : Draws σ (Failure SetupError) (ToxicWaste K)) = drawMany K count := by
  simp only [sample, count, drawMany, map_bind, map_pure, bind_assoc, pure_bind, toList]

theorem runOn_drawMany_of_drawn {state : σ} {n m : Nat} {as : List (Fp K)}
    (h : DrawnFrom state n as m) :
    (drawMany K as.length).runOn (after state n) = (.ok as, after state m) := by
  induction h with
  | nil n => rfl
  | cons first _ ih =>
    rw [List.length_cons, drawMany, Draws.runOn_bind_of_ok (runOn_draw_of_first first),
      Draws.runOn_bind_of_ok ih]
    rfl

/-- A draw that ends without a secret ends the draws. -/
theorem runOn_drawMany_of_short {state left : σ} {n m count : Nat} {as : List (Fp K)}
    {e : Failure SetupError} (h : DrawnFrom state n as m)
    (failed : (draw K).runOn (after state m) = (.error e, left)) (short : as.length < count) :
    (drawMany K count).runOn (after state n) = (.error e, left) := by
  induction h generalizing count with
  | nil n =>
    obtain ⟨count, rfl⟩ := Nat.exists_eq_succ_of_ne_zero short.ne'
    rw [drawMany, Draws.runOn_bind_of_error failed]
  | cons first _ ih =>
    obtain ⟨count, rfl⟩ := Nat.exists_eq_succ_of_ne_zero (Nat.ne_zero_of_lt short)
    rw [drawMany, Draws.runOn_bind_of_ok (runOn_draw_of_first first),
      Draws.runOn_bind_of_error (ih failed (Nat.lt_of_succ_lt_succ short))]

/-- All secrets are drawn, or some are, and the draw of the next one ends without. -/
theorem drawMany_cases (K : PrimeField) (state : σ) (n count : Nat) :
    (∃ (as : List (Fp K)) (m : Nat), as.length = count ∧ DrawnFrom state n as m) ∨
      ∃ (as : List (Fp K)) (m : Nat), as.length < count ∧ DrawnFrom state n as m ∧
        ((∃ k cause, FailsAt K state m k cause) ∨ ZerosFrom K state m Fp.maxZeroDraws) := by
  induction count generalizing n with
  | zero => exact .inl ⟨[], n, rfl, .nil n⟩
  | succ count ih =>
    rcases exists_end_of_zeros K state n Fp.maxZeroDraws with
      ⟨k, a, inTime, zeros, found, ne_zero⟩ | ⟨k, cause, inTime, zeros, failed⟩ | zeros
    · have first : FirstNonzero state n k a := ⟨inTime, zeros, found, ne_zero⟩
      rcases ih (n + k + 1) with ⟨as, m, hlength, drawn⟩ | ⟨as, m, hlength, drawn, hend⟩
      · exact .inl ⟨a :: as, m, congrArg Nat.succ hlength, .cons first drawn⟩
      · exact .inr ⟨a :: as, m, Nat.succ_lt_succ hlength, .cons first drawn, hend⟩
    · exact .inr ⟨[], n, Nat.succ_pos _, .nil n, .inl ⟨k, cause, inTime, zeros, failed⟩⟩
    · exact .inr ⟨[], n, Nat.succ_pos _, .nil n, .inr zeros⟩

/-- Secrets that are drawn are what is sampled. -/
theorem runOn_sample_of_drawn {state : σ} {m : Nat} {t : ToxicWaste K}
    (h : DrawnFrom state 0 t.toList m) : (sample K).runOn state = (.ok t, after state m) := by
  have hmany : (toList <$> sample K).runOn state = (.ok t.toList, after state m) := by
    rw [toList_map_sample]
    exact runOn_drawMany_of_drawn h
  rw [Draws.runOn_map] at hmany
  rcases hrun : (sample K).runOn state with ⟨e | u, left⟩
  · rw [hrun] at hmany
    cases hmany
  · rw [hrun, Prod.mk.injEq] at hmany
    obtain rfl : u = t := toList_injective (Except.ok.inj hmany.1)
    rw [← hmany.2]

/-- What the draw of one of them ends with is what sampling ends with. -/
theorem runOn_sample_of_short {state left : σ} {m : Nat} {as : List (Fp K)}
    {e : Failure SetupError} (drawn : DrawnFrom state 0 as m) (short : as.length < count)
    (failed : (draw K).runOn (after state m) = (.error e, left)) :
    (sample K).runOn state = (.error e, left) := by
  have hmany : (toList <$> sample K).runOn state = (.error e, left) := by
    rw [toList_map_sample]
    exact runOn_drawMany_of_short drawn failed short
  rw [Draws.runOn_map] at hmany
  rcases hrun : (sample K).runOn state with ⟨e' | u, left'⟩
  · rw [hrun] at hmany
    cases hmany
    rfl
  · rw [hrun] at hmany
    cases hmany

/-- **How the draws can end**: with all five secrets, or with fewer, where the draw of the next one
ends with a failure or with too many zeros. -/
theorem sample_cases (K : PrimeField) (state : σ) :
    (∃ (t : ToxicWaste K) (m : Nat), DrawnFrom state 0 t.toList m) ∨
      ∃ (as : List (Fp K)) (m : Nat), as.length < count ∧ DrawnFrom state 0 as m ∧
        ((∃ k cause, FailsAt K state m k cause) ∨ ZerosFrom K state m Fp.maxZeroDraws) := by
  refine (drawMany_cases K state 0 count).imp_left ?_
  rintro ⟨as, m, hlength, drawn⟩
  obtain ⟨t, rfl⟩ := exists_toList hlength
  exact ⟨t, m, drawn⟩

end ToxicWaste

end Groth16
