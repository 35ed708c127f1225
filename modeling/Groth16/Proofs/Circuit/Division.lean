import Groth16.Field.Known
import Groth16.Proofs.Circuit.Witnesses

/-!
# What a quotient is held to

A quotient `a / b` is recorded as a wire `q` with the row `b · q = a` and a recipe that has no value
for `b = 0`.  The two do not say the same: where `a` and `b` vanish together, the row holds with any
value for `q`, but the recipe has none.  So nothing can be assigned there, and still a vector that
was made otherwise satisfies the system, with a quotient of one's choice.

* `Compilation.call_recorded`: what a successful call records is there in the compiled system,
  whatever came of the other calls.
* `R1CS.Recorded.solve?_of_assign`: in what is assigned, every recipe has a value, on its wire.
* `division_settled_or_open`: on every vector that satisfies the system, a quotient is what its recipe
  says, or numerator and divisor are both zero.
* `OpenQuotient.divisor_can_vanish`: a circuit in which they are, with two different quotients.
-/

set_option autoImplicit false

namespace Groth16

variable {K : PrimeField}

open LinearCombination (ofWire)

/-! ## What a call records -/

/-- What the items come to is among the constraints and the hints. -/
structure Builder.Contains (b : Builder K) (n : Nat) (items : List (Item K)) : Prop where
  /-- The rows are there. -/
  rows : rowsOf items ⊆ b.constraints.toList
  /-- The hints are there, for the wires from `n` on. -/
  hints : ∃ m, hintsFrom n m items ⊆ b.hints.toList

theorem Builder.contains_record (b : Builder K) (items : List (Item K)) :
    (b.record items).Contains b.numWires items := by
  refine ⟨?_, b.constraints.size, ?_⟩
  · rw [record, Array.toList_append]
    exact List.subset_append_right ..
  · rw [record, Array.toList_append]
    exact List.subset_append_right ..

/-- What is there stays there. -/
theorem Builder.Contains.record {b : Builder K} {n : Nat} {items : List (Item K)}
    (h : b.Contains n items) (more : List (Item K)) : (b.record more).Contains n items := by
  obtain ⟨hrows, m, hhints⟩ := h
  refine ⟨?_, m, ?_⟩
  · rw [Builder.record, Array.toList_append]
    exact List.subset_append_of_subset_left _ hrows
  · rw [Builder.record, Array.toList_append]
    exact List.subset_append_of_subset_left _ hhints

/-- A call appends to the builder, whether or not it is successful. -/
theorem Operation.exists_record {op : Operation K} {outcome : Outcome CompileError (Result K)}
    {b b' : Builder K} (h : Build.runOn op.run b = (outcome, b')) : ∃ items, b' = b.record items := by
  rcases Operation.runOn_cases h with rfl | ⟨op', r, run, -⟩
  · exact ⟨[], (Builder.record_nil _).symm⟩
  · obtain ⟨-, -, -, rfl⟩ := Operation.runOn_ok run
    exact ⟨_, rfl⟩

/-- A definition appends to the builder. -/
theorem Trace.exists_record {known : List Wire} {b b' : Builder K} {calls : List (Call K)}
    (h : Trace known b calls b') : ∃ items, b' = b.record items := by
  induction h with
  | done known b => exact ⟨[], (Builder.record_nil b).symm⟩
  | call handedOut run rest ih =>
    obtain ⟨items, rfl⟩ := Operation.exists_record run
    obtain ⟨more, rfl⟩ := ih
    exact ⟨items ++ more, Builder.record_record ..⟩
  | refused run rest ih =>
    obtain rfl := runOn_allocate_eq_error run
    exact ih

/-- **What a successful call records is there in the end**, whatever came of the other calls. -/
theorem Trace.call_recorded {known : List Wire} {b b' : Builder K} {calls : List (Call K)}
    (h : Trace known b calls b') {op : Operation K} {result : Result K}
    (called : (⟨op, .ok result⟩ : Call K) ∈ calls) :
    ∃ n, result = op.result b.session n ∧ b'.Contains n (op.items b.session n) := by
  induction h with
  | done known b => cases called
  | @call known b b₁ b' c calls handedOut run rest ih =>
    obtain ⟨items, hitems⟩ := Operation.exists_record run
    rcases List.mem_cons.1 called with rfl | called
    · obtain ⟨-, -, hresult, rfl⟩ := Operation.runOn_ok run
      obtain ⟨more, rfl⟩ := rest.exists_record
      exact ⟨b.numWires, hresult, (b.contains_record _).record more⟩
    · have hsession : b₁.session = b.session := by
        rw [hitems]
        rfl
      rw [← hsession]
      exact ih called
  | refused run rest ih =>
    obtain rfl := runOn_allocate_eq_error run
    exact ih called

/-- What a successful call of a circuit records is there in the compiled system. -/
theorem Compilation.call_recorded {c : Circuit K} {modulus : Modulus} {session : Nat}
    {calls : List (Call K)} {r : R1CS K} (h : Compilation c modulus session calls r)
    {op : Operation K} {result : Result K} (called : (⟨op, .ok result⟩ : Call K) ∈ calls) :
    ∃ n m, result = op.result session n ∧ rowsOf (op.items session n) ⊆ r.constraints.toList ∧
      hintsFrom n m (op.items session n) ⊆ r.hints.toList := by
  obtain ⟨b, rfl, htrace⟩ := h.exists_trace
  obtain ⟨n, hresult, hrows, m, hhints⟩ := htrace.call_recorded called
  exact ⟨n, m, hresult, hrows, hhints⟩

/-! ## Recipes of a system -/

/-- Recipes hold exactly if every hint has its value on its wire. -/
theorem recipesHold_iff_hints {z : Nat → Fp K} {n m : Nat} {items : List (Item K)} :
    RecipesHold z n items ↔ ∀ hint ∈ hintsFrom n m items,
      hint.recipe.onValues? (·.eval z) = some (z hint.output) := by
  induction items generalizing n m with
  | nil => simp [RecipesHold, hintsFrom]
  | cons x items ih =>
    cases x with
    | wire recipe => rw [RecipesHold, hintsFrom, List.forall_mem_cons, ih]
    | row c => rw [RecipesHold, hintsFrom, ih]

/-- The recipes of scoped items mention only wires that are there in the end. -/
theorem Scoped.below_of_mem_hints {n m : Nat} {items : List (Item K)} (h : Scoped n items) :
    ∀ hint ∈ hintsFrom n m items, ∀ a ∈ hint.recipe.operands, a.Below (n + wireCount items) := by
  induction items generalizing n m with
  | nil => simp [hintsFrom]
  | cons x items ih =>
    cases x with
    | wire recipe =>
      obtain ⟨reads, -, rest⟩ := h
      have hwires : n + (wireCount items + 1) = n + 1 + wireCount items := by omega
      rw [hintsFrom, List.forall_mem_cons, wireCount]
      refine ⟨fun a ha => (reads a ha).mono (Nat.le_add_right _ _), ?_⟩
      rw [hwires]
      exact ih rest
    | row c => exact ih h.2

/-- The recipes of a recorded system read wires of the system. -/
theorem R1CS.Recorded.solve?_eq {r : R1CS K} {session : Nat} {known : List Wire}
    {ops : List (Operation K)} (recorded : r.Recorded session known ops) {z : Array (Fp K)}
    (size : z.size = r.numWires) {hint : Hint K} (mem : hint ∈ r.hints.toList) :
    hint.recipe.solve? z = hint.recipe.onValues? (·.eval (vectorAt z)) := by
  refine Recipe.solve?_eq fun a ha => ?_
  rw [recorded.records.hints] at mem
  rw [size, recorded.records.numWires]
  exact recorded.records.scope.below_of_mem_hints hint mem a ha

/-- In what is assigned, every recipe has a value, and its wire holds it. -/
theorem R1CS.Recorded.solve?_of_assign {r : R1CS K} {session : Nat} {known : List Wire}
    {ops : List (Operation K)} (recorded : r.Recorded session known ops)
    {secret publics : Assignment K} {w : Witness K} (h : r.assign secret publics = .ok w) :
    ∀ hint ∈ r.hints.toList, hint.recipe.solve? w.values = some (vectorAt w.values hint.output) := by
  intro hint mem
  obtain ⟨-, -, z, hz, rfl⟩ := R1CS.assign_eq_ok h
  obtain ⟨size, -, items⟩ :=
    (recorded.records.solve_eq_ok_iff (recorded.records.size_seed secret publics)).1 hz
  rw [recorded.solve?_eq size mem]
  rw [recorded.records.hints] at mem
  exact recipesHold_iff_hints.1 (itemsHold_iff_recipesHold.1 items).1 hint mem

/-! ## Quotients -/

/-- What a successful call of a quotient records, unless the divisor is a constant. -/
theorem Compilation.div_recorded {c : Circuit K} {modulus : Modulus} {session : Nat}
    {calls : List (Call K)} {r : R1CS K} (h : Compilation c modulus session calls r)
    {a b : LinearCombination K} {result : Result K}
    (called : (⟨.div a b, .ok result⟩ : Call K) ∈ calls) (runtime : b.isConstant = false) :
    ∃ q row, result = .value (ofWire q) ∧ ⟨b, ofWire q, a, .division⟩ ∈ r.constraints.toList ∧
      ⟨q.index, row, .quotient a b⟩ ∈ r.hints.toList := by
  obtain ⟨n, m, hresult, hrows, hhints⟩ := h.call_recorded called
  have hitems : (Operation.div a b).items session n =
      [.wire (.quotient a b), .row ⟨b, ofWire (.internal session n), a, .division⟩] := by
    rw [Operation.items, runtime]
    rfl
  rw [hitems] at hrows hhints
  refine ⟨.internal session n, m, ?_, hrows List.mem_cons_self, hhints List.mem_cons_self⟩
  rw [LinearCombination.isConstant, Option.isSome_eq_false_iff, Option.isNone_iff_eq_none] at runtime
  rw [hresult, Operation.result, runtime]

section
variable [prime : Fact K.modulus.Prime]

/-- The row and the recipe of a quotient. -/
theorem quotient_cases {z : Nat → Fp K} {a b : LinearCombination K} {q : Wire}
    (row : Constraint.Holds ⟨b, ofWire q, a, .division⟩ z) :
    a.eval z = 0 ∧ b.eval z = 0 ∧ (Recipe.quotient a b).onValues? (·.eval z) = none ∨
      b.eval z ≠ 0 ∧ z q.index = a.eval z * (b.eval z)⁻¹ ∧
        (Recipe.quotient a b).onValues? (·.eval z) = some (z q.index) := by
  rw [Constraint.Holds, LinearCombination.eval_ofWire] at row
  rw [Recipe.onValues?]
  by_cases hb : b.eval z = 0
  · rw [hb, zero_mul] at row
    rw [Fp.inverse?_eq_none_iff.2 hb]
    exact .inl ⟨row.symm, hb, rfl⟩
  · have hq : z q.index = a.eval z * (b.eval z)⁻¹ := by
      rw [← row, mul_right_comm, mul_inv_cancel₀ hb, one_mul]
    rw [Fp.inverse?_eq_some hb, hq]
    exact .inr ⟨hb, rfl, rfl⟩

/-- **A quotient is settled, or it is zero by zero.**  Let a circuit be compiled whose definition calls
for a quotient with a divisor that is not a constant, and let the call be successful.  The result is a
wire, and there is a recipe for this wire.  On every vector of all wires that satisfies the system,
either the divisor is not zero, the wire holds the numerator times the inverse of the divisor, and the
recipe says the same; or numerator and divisor are both zero, and the recipe has no value.  The latter
is not the case where the vector was assigned. -/
theorem division_settled_or_open {c : Circuit K} {modulus : Modulus} {session : Nat}
    {calls : List (Call K)} {r : R1CS K} (compilation : Compilation c modulus session calls r)
    {a b : LinearCombination K} {result : Result K}
    (called : (⟨.div a b, .ok result⟩ : Call K) ∈ calls) (runtime : b.isConstant = false) :
    ∃ q row, result = .value (ofWire q) ∧ ⟨q.index, row, .quotient a b⟩ ∈ r.hints.toList ∧
      (∀ z : Array (Fp K), z.size = r.numWires → r.check z = .ok () →
        a.eval (vectorAt z) = 0 ∧ b.eval (vectorAt z) = 0 ∧
            (Recipe.quotient a b).solve? z = none ∨
          b.eval (vectorAt z) ≠ 0 ∧
            vectorAt z q.index = a.eval (vectorAt z) * (b.eval (vectorAt z))⁻¹ ∧
            (Recipe.quotient a b).solve? z = some (vectorAt z q.index)) ∧
      ∀ (secret publics : Assignment K) (w : Witness K), r.assign secret publics = .ok w →
        b.eval (vectorAt w.values) ≠ 0 := by
  obtain ⟨ops, recorded, -⟩ := compilation.exists_recorded
  obtain ⟨q, row, hresult, hrow, hhint⟩ := compilation.div_recorded called runtime
  have hcases : ∀ z : Array (Fp K), z.size = r.numWires → r.check z = .ok () →
      a.eval (vectorAt z) = 0 ∧ b.eval (vectorAt z) = 0 ∧
          (Recipe.quotient a b).solve? z = none ∨
        b.eval (vectorAt z) ≠ 0 ∧
          vectorAt z q.index = a.eval (vectorAt z) * (b.eval (vectorAt z))⁻¹ ∧
          (Recipe.quotient a b).solve? z = some (vectorAt z q.index) := by
    intro z size check
    have hsatisfies := recorded.records.satisfies_iff.2
      ((recorded.records.check_eq_ok_iff size).1 check)
    rw [recorded.solve?_eq size hhint]
    exact quotient_cases (hsatisfies _ hrow)
  refine ⟨q, row, hresult, hhint, hcases, fun secret publics w assigned => ?_⟩
  obtain ⟨witness, -⟩ := recorded.isWitness_of_assign assigned
  rcases hcases w.values witness.size witness.check with ⟨-, -, hnone⟩ | ⟨hne, -⟩
  · have hsome := recorded.solve?_of_assign assigned _ hhint
    rw [hnone] at hsome
    cases hsome
  · exact hne

end

/-- In the circuit, `y` is divided by one where `x = 0`. -/
theorem division_settled_or_open_sample :
    ∃ r, Compilation Sample.circuit Sample.field.descriptor 1 Sample.calls r ∧
      r.check (Sample.wires 0) = .ok () ∧
      ∃ a b result, (⟨.div a b, .ok result⟩ : Call Sample.field) ∈ Sample.calls ∧
        b.isConstant = false ∧ ∃ q, result = .value (ofWire q) ∧
          vectorAt (Sample.wires 0) q.index = 5 ∧
          (Recipe.quotient a b).solve? (Sample.wires 0) = some 5 := by
  obtain ⟨r, h⟩ := Sample.exists_compilation
  obtain ⟨size, -, check, -⟩ := Sample.solution h (.inl rfl)
  have called : (⟨.div (ofWire ⟨1, .public, 1⟩)
      (ofWire (.internal 1 5) + ofWire ⟨2, .secret, 1⟩), .ok (.value (ofWire (.internal 1 7)))⟩ :
      Call Sample.field) ∈ Sample.calls := List.mem_of_getElem? (i := 3) rfl
  have runtime : LinearCombination.isConstant
      (ofWire (.internal 1 5) + ofWire ⟨2, .secret, 1⟩ : LinearCombination Sample.field) =
      false := by decide
  obtain ⟨q, row, hresult, -, hcases, -⟩ := division_settled_or_open h called runtime
  refine ⟨r, h, check, _, _, _, called, runtime, q, hresult, ?_⟩
  rcases hcases _ size check with ⟨hzero, -⟩ | ⟨-, hq, hsolve⟩
  · exact absurd hzero (by decide +kernel)
  · have hfive : vectorAt (Sample.wires 0) q.index = 5 := hq.trans (by decide +kernel)
    exact ⟨hfive, hsolve.trans (congrArg some hfive)⟩

/-! ## An open quotient -/

namespace OpenQuotient

/-- One public input and two secret ones. -/
def schema : Schema := ⟨[⟨"q", .public⟩, ⟨"a", .secret⟩, ⟨"b", .secret⟩]⟩

/-- The numerator. -/
def numerator : LinearCombination bn254Scalar := ofWire ⟨2, .secret, 1⟩

/-- The divisor. -/
def divisor : LinearCombination bn254Scalar := ofWire ⟨3, .secret, 1⟩

/-- The wire of the quotient. -/
def quotient : LinearCombination bn254Scalar := ofWire (.internal 1 4)

/-- The quotient of the secret inputs is asserted to be the public one. -/
def operations : List (Operation bn254Scalar) :=
  [.div numerator divisor, .assertEqual (ofWire ⟨1, .public, 1⟩) quotient]

/-- The circuit of these operations. -/
def circuit : Circuit bn254Scalar := .ofOperations schema operations

/-- The calls that it makes. -/
def calls : List (Call bn254Scalar) := callsOf 1 4 operations

/-- A vector of its wires with both secret inputs zero. -/
def wires (x : Fp bn254Scalar) : Array (Fp bn254Scalar) := #[1, x, 0, 0, x]

theorem exists_compilation : ∃ r, Compilation circuit bn254Scalar.descriptor 1 calls r :=
  Compilation.of_runAll rfl (by decide) (by decide +kernel)

/-- **A divisor can vanish.**  The circuit divides by a secret input, and every public input
whatsoever has a vector of wires that satisfies the compiled system although the divisor is zero. -/
theorem divisor_can_vanish :
    ∃ r, Compilation circuit bn254Scalar.descriptor 1 calls r ∧
      (⟨.div numerator divisor, .ok (.value quotient)⟩ : Call bn254Scalar) ∈ calls ∧
      divisor.isConstant = false ∧
      ∀ x, (wires x).size = r.numWires ∧ (wires x)[0]? = some 1 ∧ r.check (wires x) = .ok () ∧
        divisor.eval (vectorAt (wires x)) = 0 := by
  obtain ⟨r, h⟩ := exists_compilation
  obtain ⟨ops, ⟨-, -, -, records⟩, hcalls⟩ := h.exists_recorded
  obtain ⟨rfl, -⟩ := hcalls (successful_callsOf 1 4 operations)
  have hfirst : r.firstInternal = 4 := h.firstInternal_eq
  rw [hfirst] at records
  refine ⟨r, h, List.mem_of_getElem? (i := 0) rfl, by decide, fun x => ?_⟩
  have hsize : (wires x).size = r.numWires := by
    rw [records.numWires, hfirst]
    rfl
  refine ⟨hsize, rfl, (records.check_eq_ok_iff hsize).2 ?_, ?_⟩
  · have hitems : itemsOf 1 4 (calls.map (·.operation)) =
        [.wire (.quotient numerator divisor), .row ⟨divisor, quotient, numerator, .division⟩,
          .row ⟨ofWire ⟨1, .public, 1⟩, Build.one, quotient, .assertEqual⟩] := rfl
    have hone : (Build.one : LinearCombination bn254Scalar).eval (vectorAt (wires x)) = 1 :=
      LinearCombination.eval_ofWire ..
    rw [hitems, rowsHold_wire, rowsHold_row, rowsHold_row, Constraint.Holds, Constraint.Holds, hone,
      divisor, quotient, numerator, LinearCombination.eval_ofWire, LinearCombination.eval_ofWire,
      LinearCombination.eval_ofWire, LinearCombination.eval_ofWire]
    exact ⟨zero_mul x, mul_one x, rowsHold_nil⟩
  · rw [divisor, LinearCombination.eval_ofWire]
    rfl

end OpenQuotient

end Groth16
