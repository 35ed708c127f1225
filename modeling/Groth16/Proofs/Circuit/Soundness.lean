import Mathlib.Tactic.NormNum.Prime
import Groth16.Proofs.Circuit.Compilation

/-!
# Compiled systems enforce their circuits

A verifier knows of a vector of wires only that it satisfies the rows of a system.  This file shows
that for a system that was compiled from successful operations this is enough: the rows enforce
every operation that was called, and leave no wire open that was given back.

* `R1CS.Solution`: a vector of all wires that passes the check, and on which no divisor is zero that
  is not a constant.
* `compiled_results_enforced`: on a solution, every operation that was called is possible, and its
  result has the values that it names; and solutions with the same inputs agree on all wires that
  were given back.
-/

set_option autoImplicit false

namespace Groth16

variable {K : PrimeField} [prime : Fact K.modulus.Prime]

/-- A vector of all wires that passes the check, and on which no divisor of a call is zero, unless
the divisor is a constant. -/
structure R1CS.Solution (r : R1CS K) (calls : List (Call K)) (z : Array (Fp K)) : Prop where
  /-- It has all wires. -/
  size : z.size = r.numWires
  /-- The one-wire holds one. -/
  one : z[0]? = some 1
  /-- Every constraint holds. -/
  check : r.check z = .ok ()
  /-- No divisor is zero that is not a constant. -/
  divides : ∀ call ∈ calls, call.operation.Divides (·.eval (vectorAt z))

omit prime in
theorem R1CS.Solution.vectorAt_zero {r : R1CS K} {calls : List (Call K)} {z : Array (Fp K)}
    (h : r.Solution calls z) : vectorAt z 0 = 1 := vectorAt_of_getElem? h.one

/-- **Rows enforce what was called.**  If all calls of a circuit were successful, then on every
solution each operation is possible and its result has the values that the operation names of the
values of its operands.  And two solutions with the same inputs agree on every wire that was given
back; where they differ at all is on a wire for the inverse in a test for zero, of an operand that is
zero. -/
theorem compiled_results_enforced {c : Circuit K} {modulus : Modulus} {session : Nat}
    {calls : List (Call K)} {r : R1CS K} (compilation : Compilation c modulus session calls r)
    (successful : ∀ call ∈ calls, call.Successful) :
    (∀ z, r.Solution calls z → ∀ call ∈ calls,
      call.operation.Possible (·.eval (vectorAt z)) ∧
      ∃ result, call.outcome = .ok result ∧
        result.values (vectorAt z) = call.operation.values (·.eval (vectorAt z))) ∧
    ∀ z z', r.Solution calls z → r.Solution calls z' → (∀ i < r.firstInternal, z[i]? = z'[i]?) →
      (∀ call ∈ calls, ∀ w ∈ call.mentioned, w.index < r.numWires ∧ z[w.index]? = z'[w.index]?) ∧
      ∀ i < r.numWires, z[i]? = z'[i]? ∨
        ∃ hint ∈ r.hints.toList, hint.output = i ∧
          ∃ a, hint.recipe = .inverseOrZero a ∧ a.eval (vectorAt z) = 0 := by
  obtain ⟨ops, ⟨-, admissible, below, records⟩, hcalls⟩ := compilation.exists_recorded
  obtain ⟨rfl, houtcomes⟩ := hcalls successful
  have hcall := exists_result_of_outcomes houtcomes
  have hrows : ∀ {z}, r.Solution calls z → RowsHold (vectorAt z) _ := fun hz =>
    (records.check_eq_ok_iff hz.size).1 hz.check
  have hdivides : ∀ {z}, r.Solution calls z →
      ∀ op ∈ calls.map (·.operation), op.Divides (·.eval (vectorAt z)) := fun hz =>
    List.forall_mem_map.2 hz.divides
  refine ⟨fun z hz call mem => ?_, fun z z' hz hz' same => ?_⟩
  · obtain ⟨result, hok, hzip⟩ := hcall call mem
    have h := admissible.values_results hz.vectorAt_zero (hdivides hz) (hrows hz) _ hzip
    exact ⟨h.1, result, hok, h.2⟩
  · -- Equality of entries and equality of values are the same for wires that are there.
    have hentry : ∀ i < r.numWires, (vectorAt z i = vectorAt z' i ↔ z[i]? = z'[i]?) := by
      intro i hi
      rw [getElem?_eq_vectorAt (by rwa [hz.size]), getElem?_eq_vectorAt (by rwa [hz'.size]),
        Option.some.injEq]
    have hfirst : r.firstInternal ≤ r.numWires := by
      rw [records.numWires]
      exact Nat.le_add_right _ _
    have hinput : ∀ i < r.firstInternal, vectorAt z i = vectorAt z' i := fun i hi =>
      (hentry i (Nat.lt_of_lt_of_le hi hfirst)).2 (same i hi)
    obtain ⟨hresults, hwires⟩ := admissible.agree hz.vectorAt_zero hz'.vectorAt_zero (hdivides hz)
      (hdivides hz') (hrows hz) (hrows hz') (fun w hw => hinput _ (below.lt w hw)) 0
    refine ⟨fun call mem w hw => ?_, fun i hi => ?_⟩
    · obtain ⟨result, hok, hzip⟩ := hcall call mem
      rw [Call.mentioned, hok] at hw
      have hmem := (List.of_mem_zip hzip).2
      have hlt : w.index < r.numWires := by
        rw [records.numWires]
        exact admissible.results_below below result hmem w hw
      exact ⟨hlt, (hentry _ hlt).1 (hresults result hmem w hw)⟩
    · rw [← hentry i hi]
      by_cases hi' : i < r.firstInternal
      · exact .inl (hinput i hi')
      · rw [records.hints]
        rw [records.numWires] at hi
        exact hwires i (by omega) hi

/-! ## A circuit -/

namespace Sample

/-- A field that is large enough for six bits. -/
def field : PrimeField := ⟨97, 5, 5, by decide⟩

instance : Fact field.modulus.Prime := ⟨by norm_num [field]⟩

/-- One public and one secret input. -/
def schema : Schema := ⟨[⟨"y", .public⟩, ⟨"x", .secret⟩]⟩

/-- Operations on both inputs: `x` is tested for zero, replaced by one if it is, inverted, and so
on; in the end `y = x + 5` is asserted. -/
def operations : List (Operation field) :=
  let y := LinearCombination.ofWire ⟨1, .public, 1⟩
  let x := LinearCombination.ofWire ⟨2, .secret, 1⟩
  let v := fun n => LinearCombination.ofWire (.internal 1 n)
  [.isZero x, .select (v 4) (.constant 1) x, .inverse (v 5 + x), .div y (v 5 + x), .toBinary x 6,
    .fromBinary [v 8, v 9, v 10, v 11, v 12, v 13], .mulMany [x, x, y],
    .assertEqual y (x + .constant 5)]

/-- The circuit of these operations. -/
def circuit : Circuit field := .ofOperations schema operations

/-- The calls that it makes. -/
def calls : List (Call field) := callsOf 1 3 operations

/-- A vector of its wires for `x = 0` and `y = 5`, with `m` for the inverse of `x`. -/
def wires (m : Fp field) : Array (Fp field) := #[1, 5, 0, m, 1, 1, 1, 5, 0, 0, 0, 0, 0, 0, 0, 0]

theorem exists_compilation : ∃ r, Compilation circuit field.descriptor 1 calls r :=
  Compilation.of_runAll rfl (by decide) (by decide +kernel)

theorem firstInternal_eq {r : R1CS field} (h : Compilation circuit field.descriptor 1 calls r) :
    r.firstInternal = 3 := h.firstInternal_eq

theorem solution {r : R1CS field} (h : Compilation circuit field.descriptor 1 calls r)
    {m : Fp field} (hm : m = 0 ∨ m = 7) : r.Solution calls (wires m) := by
  obtain ⟨ops, ⟨-, -, -, records⟩, hcalls⟩ := h.exists_recorded
  obtain ⟨rfl, -⟩ := hcalls (successful_callsOf 1 3 operations)
  rw [firstInternal_eq h] at records
  have hsize : (wires m).size = r.numWires := by
    rw [records.numWires, firstInternal_eq h]
    rfl
  refine ⟨hsize, rfl, (records.check_eq_ok_iff hsize).2 ?_, ?_⟩
  · rcases hm with rfl | rfl
    · decide +kernel
    · decide +kernel
  · rcases hm with rfl | rfl
    · decide +kernel
    · decide +kernel

end Sample

/-- In the circuit, `x = 0` leaves the inverse open and nothing else. -/
theorem compiled_results_enforced_sample :
    ∃ r, Compilation Sample.circuit Sample.field.descriptor 1 Sample.calls r ∧
      (∀ call ∈ Sample.calls, call.Successful) ∧
      r.Solution Sample.calls (Sample.wires 0) ∧ r.Solution Sample.calls (Sample.wires 7) ∧
      (∀ call ∈ Sample.calls, call.operation.Possible (·.eval (vectorAt (Sample.wires 7))) ∧
        ∃ result, call.outcome = .ok result ∧ result.values (vectorAt (Sample.wires 7)) =
          call.operation.values (·.eval (vectorAt (Sample.wires 7)))) ∧
      ∀ call ∈ Sample.calls, ∀ w ∈ call.mentioned,
        w.index < r.numWires ∧ (Sample.wires 0)[w.index]? = (Sample.wires 7)[w.index]? := by
  obtain ⟨r, h⟩ := Sample.exists_compilation
  have successful := successful_callsOf 1 3 Sample.operations
  have hzero := Sample.solution h (.inl rfl)
  have hseven := Sample.solution h (.inr rfl)
  have enforced := compiled_results_enforced h successful
  refine ⟨r, h, successful, hzero, hseven, enforced.1 _ hseven,
    (enforced.2 _ _ hzero hseven fun i hi => ?_).1⟩
  rw [Sample.firstInternal_eq h] at hi
  interval_cases i <;> rfl

end Groth16
