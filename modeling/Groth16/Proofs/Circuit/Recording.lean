import Groth16.Circuit.Operation
import Groth16.Proofs.Circuit.Evaluation

/-!
# What a builder records

A builder only ever grows: it appends internal wires with their recipes, and rows.  This file makes
that a list of items, and says what the primitives of the monad `Build` do to it.

* `Item`: an internal wire with its recipe, or a row.  `rowsOf` and `hintsFrom` are the rows and
  the hints that a list of items comes to.
* `Builder.record`: the builder with a list of items appended.
* `Build.runOn`: a computation run on a builder, with one law for each way to combine computations
  (`runOn_bind_eq_ok`, `runOn_bind_eq_error`, …) and one for each primitive (`runOn_compute`,
  `runOn_enforce`, `runOn_checked_eq_ok`).
* `Build.Owned`: the builder may use every wire of a combination.
-/

set_option autoImplicit false

namespace Groth16

variable {K : PrimeField}

/-! ## Items -/

/-- What a builder records. -/
inductive Item (K : PrimeField) where
  /-- An internal wire, with its recipe. -/
  | wire (recipe : Recipe K)
  /-- A row. -/
  | row (constraint : Constraint K)

/-- How many wires the items allocate. -/
def wireCount : List (Item K) → Nat
  | [] => 0
  | .wire _ :: items => wireCount items + 1
  | .row _ :: items => wireCount items

/-- The rows among the items. -/
def rowsOf : List (Item K) → List (Constraint K)
  | [] => []
  | .wire _ :: items => rowsOf items
  | .row c :: items => c :: rowsOf items

/-- The hints for the wires among the items, where the next wire is `n` and the next row is `m`. -/
def hintsFrom : Nat → Nat → List (Item K) → List (Hint K)
  | _, _, [] => []
  | n, m, .wire recipe :: items => ⟨n, m, recipe⟩ :: hintsFrom (n + 1) m items
  | n, m, .row _ :: items => hintsFrom n (m + 1) items

@[simp] theorem wireCount_append (xs ys : List (Item K)) :
    wireCount (xs ++ ys) = wireCount xs + wireCount ys := by
  induction xs with
  | nil => simp [wireCount]
  | cons x xs ih =>
    cases x with
    | wire recipe =>
      rw [List.cons_append, wireCount, wireCount, ih]
      omega
    | row c => rw [List.cons_append, wireCount, wireCount, ih]

@[simp] theorem rowsOf_append (xs ys : List (Item K)) :
    rowsOf (xs ++ ys) = rowsOf xs ++ rowsOf ys := by
  induction xs with
  | nil => rfl
  | cons x xs ih => cases x <;> simp [rowsOf, ih]

theorem hintsFrom_append (n m : Nat) (xs ys : List (Item K)) :
    hintsFrom n m (xs ++ ys) =
      hintsFrom n m xs ++ hintsFrom (n + wireCount xs) (m + (rowsOf xs).length) ys := by
  induction xs generalizing n m with
  | nil => simp [hintsFrom, wireCount, rowsOf]
  | cons x xs ih =>
    cases x with
    | wire recipe =>
      rw [List.cons_append, hintsFrom, ih, hintsFrom, wireCount, rowsOf, List.cons_append]
      congr 3
      omega
    | row c =>
      rw [List.cons_append, hintsFrom, ih, hintsFrom, wireCount, rowsOf, List.length_cons]
      congr 2
      omega

theorem length_hintsFrom (n m : Nat) (items : List (Item K)) :
    (hintsFrom n m items).length = wireCount items := by
  induction items generalizing n m with
  | nil => rfl
  | cons x items ih => cases x <;> simp [hintsFrom, wireCount, ih]

namespace Builder

/-- The builder with items appended. -/
def record (b : Builder K) (items : List (Item K)) : Builder K :=
  { b with
    numWires := b.numWires + wireCount items
    constraints := b.constraints ++ (rowsOf items).toArray
    hints := b.hints ++ (hintsFrom b.numWires b.constraints.size items).toArray }

@[simp] theorem record_session (b : Builder K) (items : List (Item K)) :
    (b.record items).session = b.session := rfl

@[simp] theorem record_numWires (b : Builder K) (items : List (Item K)) :
    (b.record items).numWires = b.numWires + wireCount items := rfl

@[simp] theorem record_inputsSealed (b : Builder K) (items : List (Item K)) :
    (b.record items).inputsSealed = b.inputsSealed := rfl

@[simp] theorem record_nil (b : Builder K) : b.record [] = b := by
  simp [record, wireCount, rowsOf, hintsFrom]

@[simp] theorem record_record (b : Builder K) (xs ys : List (Item K)) :
    (b.record xs).record ys = b.record (xs ++ ys) := by
  simp [record, hintsFrom_append, Nat.add_assoc]

end Builder

/-- The handle of internal wire `n` of a compilation. -/
def Wire.internal (session n : Nat) : Wire := ⟨n, .internal, session⟩

/-! ## Running on a builder -/

namespace Build

/-- What a computation gives on a builder, and the builder afterwards. -/
def runOn {α : Type} (x : Build K α) (b : Builder K) :
    Except (Failure CompileError) α × Builder K :=
  x.run.run b

theorem runOn_bind {α β : Type} (x : Build K α) (f : α → Build K β) (b : Builder K) :
    runOn (x >>= f) b = match runOn x b with
      | (.ok a, b') => runOn (f a) b'
      | (.error e, b') => (.error e, b') := by
  rw [runOn, runOn, ExceptT.run_bind, StateT.run_bind]
  rcases x.run.run b with ⟨_ | a, b'⟩
  · rfl
  · rfl

/-- A sequence succeeds exactly if both parts do, one after the other. -/
theorem runOn_bind_eq_ok {α β : Type} {x : Build K α} {f : α → Build K β} {b b' : Builder K}
    {r : β} : runOn (x >>= f) b = (.ok r, b') ↔
      ∃ a b₁, runOn x b = (.ok a, b₁) ∧ runOn (f a) b₁ = (.ok r, b') := by
  rw [runOn_bind]
  rcases runOn x b with ⟨_ | a, b₁⟩
  · simp
  · simp

/-- A sequence fails exactly if the first part does, or else the second. -/
theorem runOn_bind_eq_error {α β : Type} {x : Build K α} {f : α → Build K β} {b b' : Builder K}
    {e : Failure CompileError} : runOn (x >>= f) b = (.error e, b') ↔
      runOn x b = (.error e, b') ∨
        ∃ a b₁, runOn x b = (.ok a, b₁) ∧ runOn (f a) b₁ = (.error e, b') := by
  rw [runOn_bind]
  rcases runOn x b with ⟨_ | a, b₁⟩
  · simp
  · simp

@[simp] theorem runOn_pure {α : Type} (a : α) (b : Builder K) :
    runOn (pure a : Build K α) b = (.ok a, b) := rfl

@[simp] theorem runOn_report {α : Type} (e : CompileError) (b : Builder K) :
    runOn (report e : Build K α) b = (.error (.reported e), b) := rfl

theorem runOn_map {α β : Type} (f : α → β) (x : Build K α) (b : Builder K) :
    runOn (f <$> x) b = ((runOn x b).1.map f, (runOn x b).2) := by
  rw [map_eq_pure_bind, runOn_bind]
  rcases runOn x b with ⟨_ | a, b'⟩
  · rfl
  · rfl

theorem runOn_map_eq_ok {α β : Type} {f : α → β} {x : Build K α} {b b' : Builder K} {r : β} :
    runOn (f <$> x) b = (.ok r, b') ↔ ∃ a, runOn x b = (.ok a, b') ∧ f a = r := by
  rw [runOn_map]
  rcases runOn x b with ⟨_ | a, b₁⟩
  · simp [Except.map]
  · simp [Except.map, and_comm]

theorem runOn_map_eq_error {α β : Type} {f : α → β} {x : Build K α} {b b' : Builder K}
    {e : Failure CompileError} :
    runOn (f <$> x) b = (.error e, b') ↔ runOn x b = (.error e, b') := by
  rw [runOn_map]
  rcases runOn x b with ⟨_ | a, b₁⟩
  · simp [Except.map]
  · simp [Except.map]

/-! ## The primitives -/

/-- The builder may use every wire of the combination. -/
def Owned (b : Builder K) (a : LinearCombination K) : Prop := ∀ w ∈ a.wires, owns b w = true

theorem owns_iff {b : Builder K} {w : Wire} :
    owns b w = true ↔ w.role = .constant ∨ w.session = b.session ∧ w.index < b.numWires := by
  simp [owns]

theorem owns_record {b : Builder K} {w : Wire} (items : List (Item K)) (h : owns b w = true) :
    owns (b.record items) w = true := by
  rw [owns_iff] at h ⊢
  exact h.imp_right fun h => ⟨h.1, Nat.lt_of_lt_of_le h.2 (Nat.le_add_right _ _)⟩

theorem Owned.record {b : Builder K} {a : LinearCombination K} (h : Owned b a)
    (items : List (Item K)) : Owned (b.record items) a := fun w hw => owns_record items (h w hw)

theorem runOn_checked (a : LinearCombination K) (b : Builder K) :
    runOn (checked a) b = (if a.wires.all (owns b) then .ok a else .error .breach, b) := by
  show (if a.wires.all (owns b) then pure a else throw .breach : Build K _).run.run b = _
  split
  · rfl
  · rfl

theorem runOn_checked_eq_ok {a a' : LinearCombination K} {b b' : Builder K} :
    runOn (checked a) b = (.ok a', b') ↔ Owned b a ∧ a = a' ∧ b = b' := by
  rw [runOn_checked, Owned, ← List.all_eq_true]
  split
  · next h => simp [h]
  · next h => simp [h]

theorem runOn_checked_eq_error {a : LinearCombination K} {b b' : Builder K}
    {e : Failure CompileError} :
    runOn (checked a) b = (.error e, b') ↔ ¬ Owned b a ∧ e = .breach ∧ b' = b := by
  rw [runOn_checked, Owned, ← List.all_eq_true]
  split
  · next h => simp [h]
  · next h => simp [h, eq_comm]

@[simp] theorem runOn_compute (recipe : Recipe K) (b : Builder K) :
    runOn (compute recipe) b = (.ok (.internal b.session b.numWires), b.record [.wire recipe]) := by
  show (Except.ok (Wire.internal b.session b.numWires), _) = _
  simp [Builder.record, hintsFrom, rowsOf, wireCount]

@[simp] theorem runOn_enforce (tag : Tag) (x y z : LinearCombination K) (b : Builder K) :
    runOn (enforce tag x y z) b = (.ok (), b.record [.row ⟨x, y, z, tag⟩]) := by
  show (Except.ok (), _) = _
  simp [Builder.record, hintsFrom, rowsOf, wireCount]

end Build

end Groth16
