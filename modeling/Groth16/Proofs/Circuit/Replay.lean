import Groth16.Circuit.Witness
import Groth16.Proofs.Circuit.Gadgets
import Groth16.Proofs.Circuit.Scope

/-!
# Replaying recipes

A witness comes about by replaying the recipes in order, each reading wires before its own, and then
checking all rows.  For a system that was recorded in this way, replaying is nothing but solving the
equations of the recipes one by one.

* `RecipesHold`: every wire has the value of its recipe.
* `ConstraintSystem.Records`: the system is what a list of items comes to.
* `ConstraintSystem.solve_eq_ok_iff`: solving gives a vector exactly if the vector continues the
  inputs and rows and recipes hold on it; so there is at most one such vector.
* `ConstraintSystem.solve_eq_report`: otherwise a row is reported; never is a precondition broken.
-/

set_option autoImplicit false

namespace Groth16

variable {K : PrimeField}

/-! ## Recipes -/

/-- Every wire has the value of its recipe, where the next wire is `n`. -/
def RecipesHold (z : Nat → Fp K) : Nat → List (Item K) → Prop
  | _, [] => True
  | n, .wire recipe :: items =>
    recipe.onValues? (·.eval z) = some (z n) ∧ RecipesHold z (n + 1) items
  | n, .row _ :: items => RecipesHold z n items

theorem itemsHold_iff_recipesHold {z : Nat → Fp K} {n : Nat} {items : List (Item K)} :
    ItemsHold z n items ↔ RecipesHold z n items ∧ RowsHold z items := by
  induction items generalizing n with
  | nil => simp [ItemsHold, RecipesHold]
  | cons x items ih =>
    cases x with
    | wire recipe => rw [ItemsHold, RecipesHold, rowsHold_wire, ih, and_assoc]
    | row c => rw [ItemsHold, RecipesHold, rowsHold_row, ih, and_left_comm]

/-! ## One recipe -/

theorem Recipe.onValues?_congr {recipe : Recipe K} {v v' : LinearCombination K → Fp K}
    (h : ∀ a ∈ recipe.operands, v a = v' a) : recipe.onValues? v = recipe.onValues? v' := by
  cases recipe <;> simp_all [Recipe.operands, Recipe.onValues?]

/-- A recipe that reads wires of the vector has its value there. -/
theorem Recipe.solve?_eq {recipe : Recipe K} {z : Array (Fp K)}
    (h : ∀ a ∈ recipe.operands, a.Below z.size) :
    recipe.solve? z = recipe.onValues? (·.eval (vectorAt z)) := by
  refine Recipe.onValues?_congr fun a ha => ?_
  rw [LinearCombination.evaluate?_eq_some (h a ha), Option.getD_some]

theorem Recipe.readable_eq_true {recipe : Recipe K} {z : Array (Fp K)}
    (h : ∀ a ∈ recipe.operands, a.Below z.size) : recipe.readable z = true := by
  rw [Recipe.readable, List.all_eq_true]
  intro a ha
  rw [LinearCombination.evaluate?_eq_some (h a ha)]
  rfl

namespace ConstraintSystem

variable {s : ConstraintSystem K} {z : Array (Fp K)} {n m : Nat} {recipe : Recipe K}

theorem replayHint_of_some {x : Fp K} (reads : ∀ a ∈ recipe.operands, a.Below z.size)
    (writes : n < z.size) (value : recipe.onValues? (·.eval (vectorAt z)) = some x) :
    s.replayHint z ⟨n, m, recipe⟩ = .ok (z.setIfInBounds n x) := by
  rw [replayHint, Recipe.readable_eq_true reads, Recipe.solve?_eq reads, value]
  show (if n < z.size then _ else _) = _
  rw [if_pos writes]
  rfl

theorem replayHint_of_none (reads : ∀ a ∈ recipe.operands, a.Below z.size)
    (row : m < s.constraints.size) (value : recipe.onValues? (·.eval (vectorAt z)) = none) :
    ∃ u, s.replayHint z ⟨n, m, recipe⟩ = .report u := by
  rw [replayHint, Recipe.readable_eq_true reads, Recipe.solve?_eq reads, value, reportOf,
    Array.getElem?_eq_getElem row]
  exact ⟨_, rfl⟩

/-! ## All recipes -/

/-- **A replay ends well or is reported.**  Where it ends with a vector, this continues the one at
the beginning, and every wire has the value of its recipe. -/
theorem replay_cases {items : List (Item K)} (scope : Scoped n items)
    (room : n + wireCount items ≤ z.size)
    (rows : m + (rowsOf items).length ≤ s.constraints.size) :
    (∃ y, s.replay z (hintsFrom n m items) = .ok y ∧ y.size = z.size ∧
      (∀ i < n, vectorAt y i = vectorAt z i) ∧ RecipesHold (vectorAt y) n items) ∨
    ∃ u, s.replay z (hintsFrom n m items) = .report u := by
  induction items generalizing n m z with
  | nil => exact .inl ⟨z, rfl, rfl, fun _ _ => rfl, trivial⟩
  | cons x items ih =>
    cases x with
    | wire recipe =>
      obtain ⟨reads, hrow, scope⟩ := scope
      rw [wireCount] at room
      rw [rowsOf] at rows
      have hlen := List.length_pos_of_ne_nil hrow
      have reads' : ∀ a ∈ recipe.operands, a.Below z.size :=
        fun a ha => (reads a ha).mono (by omega)
      rw [hintsFrom, replay]
      cases value : recipe.onValues? (·.eval (vectorAt z)) with
      | none =>
        obtain ⟨u, hu⟩ := replayHint_of_none (s := s) (n := n) (m := m) reads' (by omega) value
        rw [hu]
        exact .inr ⟨u, rfl⟩
      | some x =>
        rw [replayHint_of_some reads' (by omega) value]
        have hset : ∀ i, vectorAt (z.setIfInBounds n x) i = if i = n then x else vectorAt z i :=
          vectorAt_setIfInBounds (by omega) x
        rcases ih (m := m) (z := z.setIfInBounds n x) scope
          (by rw [Array.size_setIfInBounds]; omega) rows with ⟨y, hy, hsize, hsame, hrecipes⟩ | hu
        · refine .inl ⟨y, hy, by rw [hsize, Array.size_setIfInBounds], fun i hi => ?_, ?_, hrecipes⟩
          · rw [hsame i (by omega), hset, if_neg (by omega)]
          · -- The recipe reads only wires that the rest of the replay leaves alone.
            have hy_n : vectorAt y n = x := by rw [hsame n (by omega), hset, if_pos rfl]
            rw [hy_n, ← value]
            refine Recipe.onValues?_congr fun a ha => LinearCombination.eval_congr fun w hw => ?_
            have hw := reads a ha w hw
            rw [hsame _ (by omega), hset, if_neg (by omega)]
        · exact .inr hu
    | row c =>
      rw [rowsOf, List.length_cons] at rows
      exact ih (m := m + 1) scope.2 room (by omega)

/-- A vector on which all recipes hold is what the replay ends with. -/
theorem replay_of_recipesHold {items : List (Item K)} {y : Array (Fp K)}
    (scope : Scoped n items) (length : n + wireCount items = z.size) (size : y.size = z.size)
    (same : ∀ i < n, vectorAt y i = vectorAt z i) (recipes : RecipesHold (vectorAt y) n items) :
    s.replay z (hintsFrom n m items) = .ok y := by
  induction items generalizing n m z with
  | nil =>
    rw [wireCount, Nat.add_zero] at length
    exact congrArg Except.ok (ext_vectorAt size.symm fun i hi => (same i (by omega)).symm)
  | cons x items ih =>
    cases x with
    | wire recipe =>
      obtain ⟨reads, -, scope⟩ := scope
      obtain ⟨value, recipes⟩ := recipes
      rw [wireCount] at length
      have value' : recipe.onValues? (·.eval (vectorAt z)) = some (vectorAt y n) := by
        rw [← value]
        exact Recipe.onValues?_congr fun a ha => LinearCombination.eval_congr fun w hw =>
          (same _ (reads a ha w hw)).symm
      rw [hintsFrom, replay, replayHint_of_some
        (fun a ha => (reads a ha).mono (by omega)) (by omega) value']
      refine ih scope (by rw [Array.size_setIfInBounds]; omega)
        (by rw [Array.size_setIfInBounds, size]) (fun i hi => ?_) recipes
      rw [vectorAt_setIfInBounds (by omega)]
      split
      · next h => rw [h]
      · exact same i (by omega)
    | row c => exact ih scope.2 length size same recipes

theorem solve_of_replay {y : Array (Fp K)} (h : s.replay z s.hints.toList = .ok y) :
    s.solve z = match s.check y with
      | .ok _ => .ok y
      | .error e => .error e := by
  rw [solve, h]
  show (do s.check y; pure y : Outcome Unsatisfied _) = _
  rcases s.check y with e | ⟨⟩
  · rfl
  · rfl

/-! ## Recorded systems -/

/-- The first internal wire. -/
def firstInternal (s : ConstraintSystem K) : Nat := s.numPublic + s.numSecret + 1

/-- The system is what the items come to. -/
structure Records (s : ConstraintSystem K) (items : List (Item K)) : Prop where
  /-- Its constraints are the rows. -/
  constraints : s.constraints.toList = rowsOf items
  /-- Its hints are the recipes. -/
  hints : s.hints.toList = hintsFrom s.firstInternal 0 items
  /-- It has the wires of the inputs and of the recipes. -/
  numWires : s.numWires = s.firstInternal + wireCount items
  /-- The items mention only wires that are there already. -/
  scope : Scoped s.firstInternal items

namespace Records

variable {items : List (Item K)} {y : Array (Fp K)}

theorem below (records : s.Records items) : ∀ c ∈ s.constraints.toList, c.Below s.numWires := by
  rw [records.constraints, records.numWires]
  exact records.scope.below

theorem satisfies_iff (records : s.Records items) {v : Nat → Fp K} :
    s.Satisfies v ↔ RowsHold v items := by
  rw [Satisfies, records.constraints, RowsHold]

/-- On a vector of all wires the check decides whether all rows hold. -/
theorem check_eq_ok_iff (records : s.Records items) (size : z.size = s.numWires) :
    s.check z = .ok () ↔ RowsHold (vectorAt z) items := by
  rw [ConstraintSystem.check_eq_ok_iff (by rw [size]; exact records.below), records.satisfies_iff]

theorem check_eq_report (records : s.Records items) (size : z.size = s.numWires)
    (h : ¬ RowsHold (vectorAt z) items) : ∃ u, s.check z = .report u := by
  rw [← records.satisfies_iff] at h
  exact ConstraintSystem.check_eq_report (by rw [size]; exact records.below) h

/-- What the replay of a recorded system comes to. -/
theorem replay_cases (records : s.Records items) (size : z.size = s.numWires) :
    (∃ y, s.replay z s.hints.toList = .ok y ∧ y.size = s.numWires ∧
      (∀ i < s.firstInternal, vectorAt y i = vectorAt z i) ∧
      RecipesHold (vectorAt y) s.firstInternal items) ∨
    ∃ u, s.replay z s.hints.toList = .report u := by
  rw [records.hints, ← size]
  refine ConstraintSystem.replay_cases records.scope ?_ ?_
  · rw [size, records.numWires]
  · rw [← records.constraints, Array.length_toList, Nat.zero_add]

/-- **Solving is solving equations.**  It ends with a vector exactly if the vector continues the
inputs and all rows and recipes hold on it. -/
theorem solve_eq_ok_iff (records : s.Records items) (size : z.size = s.numWires) :
    s.solve z = .ok y ↔ y.size = s.numWires ∧
      (∀ i < s.firstInternal, vectorAt y i = vectorAt z i) ∧
      ItemsHold (vectorAt y) s.firstInternal items := by
  rw [itemsHold_iff_recipesHold]
  constructor
  · intro h
    rcases records.replay_cases size with ⟨y', hy', hsize, hsame, hrecipes⟩ | ⟨u, hu⟩
    · rw [solve_of_replay hy'] at h
      by_cases hrows : RowsHold (vectorAt y') items
      · rw [(records.check_eq_ok_iff hsize).2 hrows] at h
        obtain rfl : y' = y := Except.ok.inj h
        exact ⟨hsize, hsame, hrecipes, hrows⟩
      · obtain ⟨u, hu⟩ := records.check_eq_report hsize hrows
        rw [hu] at h
        cases h
    · rw [solve, hu] at h
      cases h
  · rintro ⟨hsize, hsame, hrecipes, hrows⟩
    have hreplay : s.replay z s.hints.toList = .ok y := by
      rw [records.hints]
      exact replay_of_recipesHold records.scope (by rw [size, records.numWires])
        (by rw [hsize, size]) hsame hrecipes
    rw [solve_of_replay hreplay, (records.check_eq_ok_iff hsize).2 hrows]

/-- Where solving ends with no vector, a row is reported. -/
theorem solve_eq_report (records : s.Records items) (size : z.size = s.numWires)
    (none : ∀ y, s.solve z ≠ .ok y) : ∃ u, s.solve z = .report u := by
  rcases records.replay_cases size with ⟨y, hy, hsize, -, -⟩ | ⟨u, hu⟩
  · by_cases hrows : RowsHold (vectorAt y) items
    · refine absurd ?_ (none y)
      rw [solve_of_replay hy, (records.check_eq_ok_iff hsize).2 hrows]
    · obtain ⟨u, hu⟩ := records.check_eq_report hsize hrows
      refine ⟨u, ?_⟩
      rw [solve_of_replay hy, hu]
      rfl
  · refine ⟨u, ?_⟩
    rw [solve, hu]
    rfl

end Records

end ConstraintSystem

end Groth16
