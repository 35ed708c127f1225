import Groth16.Proofs.Circuit.Soundness
import Groth16.Proofs.Data.Dictionary
import Groth16.Proofs.Outcome

/-!
# Witnesses are direct executions

The recipes of a compiled system are a second implementation of the operations, beside the rows.
This file shows that the two are at one: what is assigned to the wires is what the operations give
when they are carried out on field elements, and an assignment fails exactly where they fail.

* `Assignment.checkNames_eq_ok_iff`: exactly the declared names are accepted.
* `ConstraintSystem.inputValues`: the values of the one-wire and of the inputs.
* `R1CS.Recorded.solve_eq_ok_iff`: solving a recorded system is carrying out its operations.
* `assign_eq_execute`: the witness of an assignment is the direct execution.
-/

set_option autoImplicit false

namespace Groth16

variable {K : PrimeField}

/-! ## Names -/

namespace Assignment

/-- The assignment gives values to exactly these names. -/
def Gives (a : Assignment K) (names : List String) : Prop := ∀ name, name ∈ a.names ↔ name ∈ names

variable {a : Assignment K} {declared other names : List String} {role otherRole : Role}

theorem checkGiven_eq_ok_iff :
    checkGiven declared other otherRole names = .ok () ↔ ∀ name ∈ names, name ∈ declared := by
  induction names with
  | nil => simp [checkGiven]
  | cons name names ih =>
    rw [checkGiven, List.forall_mem_cons]
    by_cases hname : name ∈ declared
    · rw [if_pos (List.contains_iff_mem.2 hname), ih, and_iff_right hname]
    · rw [if_neg (mt List.contains_iff_mem.1 hname)]
      refine iff_of_false ?_ fun h => hname h.1
      split
      · nofun
      · nofun

theorem checkDeclared_eq_ok_iff :
    checkDeclared a role names = .ok () ↔ ∀ name ∈ names, name ∈ a.names := by
  induction names with
  | nil => simp [checkDeclared]
  | cons name names ih =>
    rw [checkDeclared, List.forall_mem_cons]
    by_cases hname : name ∈ a.names
    · rw [if_pos (Dictionary.mem_names_iff.1 hname), ih, and_iff_right hname]
    · rw [if_neg (mt Dictionary.mem_names_iff.2 hname)]
      exact iff_of_false nofun fun h => hname h.1

/-- Exactly the declared names are accepted. -/
theorem checkNames_eq_ok_iff :
    a.checkNames declared role other otherRole = .ok () ↔ a.Gives declared := by
  rw [checkNames, Outcome.bind_eq_ok]
  constructor
  · rintro ⟨⟨⟩, hgiven, hdeclared⟩ name
    exact ⟨checkGiven_eq_ok_iff.1 hgiven name, checkDeclared_eq_ok_iff.1 hdeclared name⟩
  · intro h
    exact ⟨(), checkGiven_eq_ok_iff.2 fun name => (h name).1,
      checkDeclared_eq_ok_iff.2 fun name => (h name).2⟩

end Assignment

/-! ## The vector of the inputs -/

namespace ConstraintSystem

/-- The values of the one-wire and of the inputs, in the order of the wires. -/
def inputValues (s : ConstraintSystem K) (secret publics : Assignment K) : List (Fp K) :=
  1 :: (publics.valuesOf s.publicNames ++ secret.valuesOf s.secretNames)

@[simp] theorem length_inputValues (s : ConstraintSystem K) (secret publics : Assignment K) :
    (s.inputValues secret publics).length = s.firstInternal := by
  rw [inputValues, List.length_cons, List.length_append, Assignment.valuesOf, Assignment.valuesOf,
    List.length_map, List.length_map]
  rfl

theorem Records.size_seed {s : ConstraintSystem K} {items : List (Item K)} (h : s.Records items)
    (secret publics : Assignment K) : (s.seed secret publics).size = s.numWires := by
  have hfirst : s.firstInternal ≤ s.numWires := by
    rw [h.numWires]
    exact Nat.le_add_right _ _
  have hlen := s.length_inputValues secret publics
  rw [seed, ← inputValues, List.size_toArray, List.length_append, List.length_replicate, hlen]
  omega

theorem vectorAt_seed {s : ConstraintSystem K} (secret publics : Assignment K) {i : Nat}
    (h : i < s.firstInternal) :
    vectorAt (s.seed secret publics) i = listAt (s.inputValues secret publics) i := by
  have hlen := s.length_inputValues secret publics
  rw [vectorAt, seed, ← inputValues, listAt, Array.getD_eq_getD_getElem?, List.getElem?_toArray,
    List.getD_eq_getElem?_getD, List.getElem?_append_left (by rwa [hlen])]

end ConstraintSystem

namespace Assignment

theorem find?_of_gives {a : Assignment K} {names : List String} (h : a.Gives names) {name : String}
    (mem : name ∈ names) : a.find? name = some ((a.find? name).getD 0) := by
  have hsome : (a.find? name).isSome = true := Dictionary.mem_names_iff.1 ((h name).2 mem)
  rw [Option.getD_of_ne_none (Option.isSome_iff_ne_none.1 hsome)]

theorem getElem?_valuesOf {a : Assignment K} {names : List String} (h : a.Gives names)
    {name : String} {k : Nat} (hk : names[k]? = some name) :
    (a.valuesOf names)[k]? = a.find? name := by
  rw [valuesOf, List.getElem?_map, hk, find?_of_gives h (List.mem_of_getElem? hk)]
  rfl

end Assignment

/-- Every input has the value that was given for its name. -/
theorem getElem?_inputValues {s : ConstraintSystem K} {schema : Schema} {session : Nat}
    {secret publics : Assignment K} (publicNames : s.publicNames = schema.names .public)
    (secretNames : s.secretNames = schema.names .secret)
    (givesPublics : publics.Gives (schema.names .public))
    (givesSecret : secret.Gives (schema.names .secret)) {e : String × Wire}
    (mem : e ∈ (schema.inputsOf session).wires) :
    (s.inputValues secret publics)[e.2.index]? =
      if e.2.role = .public then publics.find? e.1 else secret.find? e.1 := by
  have hlen : (publics.valuesOf (schema.names .public)).length = (schema.names .public).length :=
    List.length_map _
  rw [ConstraintSystem.inputValues, publicNames, secretNames]
  rcases List.mem_append.1 mem with mem | mem
  · obtain ⟨k, hk, he⟩ := exists_of_mem_inputWires mem
    have hlt := (List.getElem?_eq_some_iff.1 hk).1
    rw [he, if_pos rfl, Nat.add_comm 1, List.getElem?_cons_succ,
      List.getElem?_append_left (by rwa [hlen]), Assignment.getElem?_valuesOf givesPublics hk]
  · obtain ⟨k, hk, he⟩ := exists_of_mem_inputWires mem
    rw [he, if_neg (show ¬ Role.secret = Role.public by decide), Nat.add_assoc, Nat.add_comm 1,
      List.getElem?_cons_succ,
      List.getElem?_append_right (by rw [hlen]; exact Nat.le_add_right _ _), hlen,
      Nat.add_sub_cancel_left, Assignment.getElem?_valuesOf givesSecret hk]

theorem holdsFrom_iff_getD {z : Nat → Fp K} {n : Nat} {xs : List (Fp K)} :
    HoldsFrom z n xs ↔ ∀ i < xs.length, z (n + i) = xs.getD i 0 := by
  induction xs generalizing n with
  | nil => simp
  | cons x xs ih =>
    rw [holdsFrom_cons, ih]
    constructor
    · rintro ⟨hx, hxs⟩ i hi
      cases i with
      | zero => exact hx
      | succ i =>
        have := hxs i (Nat.lt_of_succ_lt_succ hi)
        rwa [Nat.add_assoc, Nat.add_comm 1] at this
    · intro h
      refine ⟨h 0 (Nat.succ_pos _), fun i hi => ?_⟩
      rw [Nat.add_assoc, Nat.add_comm 1]
      exact h (i + 1) (Nat.succ_lt_succ hi)

theorem holdsFrom_zero_iff {z : Nat → Fp K} {xs : List (Fp K)} :
    HoldsFrom z 0 xs ↔ ∀ i < xs.length, z i = listAt xs i := by
  rw [holdsFrom_iff_getD]
  simp only [Nat.zero_add, listAt]

/-- A vector that holds the values of a list, and no others, is the list. -/
theorem eq_toArray_iff {y : Array (Fp K)} {ys : List (Fp K)} (size : y.size = ys.length) :
    HoldsFrom (vectorAt y) 0 ys ↔ y.toList = ys := by
  rw [holdsFrom_zero_iff]
  constructor
  · intro h
    refine List.ext_getElem size fun i hi hi' => ?_
    have hi'' : i < y.size := hi
    have := h i hi'
    rw [vectorAt, listAt, Array.getD_eq_getD_getElem?, List.getD_eq_getElem?_getD,
      Array.getElem?_eq_getElem hi'', List.getElem?_eq_getElem hi'] at this
    exact this
  · rintro rfl i hi
    rw [vectorAt, listAt, Array.getD_eq_getD_getElem?, List.getD_eq_getElem?_getD,
      Array.getElem?_toList]

/-- With values for exactly the declared names, an assignment is what solving the system gives. -/
theorem R1CS.assign_eq {r : R1CS K} (modulus : r.modulus = K.descriptor)
    {secret publics : Assignment K} (givesPublics : publics.Gives r.publicNames)
    (givesSecret : secret.Gives r.secretNames) :
    r.assign secret publics =
      ((r.solve (r.seed secret publics)).mapError WitnessError.unsatisfied).map
        fun z => ⟨z, r.numPublic, r.digest, r.modulus⟩ := by
  have hcheck : r.checkInputs secret publics = .ok () := by
    rw [R1CS.checkInputs, modulus, Modulus.ensure_descriptor]
    show (do
      publics.checkNames r.publicNames .public r.secretNames .secret
      secret.checkNames r.secretNames .secret r.publicNames .public) = _
    rw [Assignment.checkNames_eq_ok_iff.2 givesPublics]
    exact Assignment.checkNames_eq_ok_iff.2 givesSecret
  rw [R1CS.assign, hcheck]
  show (do
    let z ← (r.solve (r.seed secret publics)).mapError WitnessError.unsatisfied
    return ⟨z, r.numPublic, r.digest, r.modulus⟩ : Outcome WitnessError (Witness K)) = _
  cases (r.solve (r.seed secret publics)).mapError WitnessError.unsatisfied with
  | ok z => rfl
  | error e => rfl

section
variable [prime : Fact K.modulus.Prime]

theorem length_execute? (session : Nat) {zs ys : List (Fp K)} {ops : List (Operation K)}
    (h : Operation.execute? zs ops = some ys) :
    ys.length = zs.length + wireCount (itemsOf session zs.length ops) := by
  induction ops generalizing zs with
  | nil =>
    obtain rfl : zs = ys := Option.some.inj h
    rfl
  | cons op ops ih =>
    rw [Operation.execute?] at h
    split at h
    · have hlen := ih h
      rw [List.length_append, op.length_wireValues _ session zs.length] at hlen
      rw [itemsOf, wireCount_append, hlen, Nat.add_assoc]
    · cases h

/-- **Solving is carrying out the operations.** -/
theorem R1CS.Recorded.solve_eq_ok_iff {r : R1CS K} {session : Nat} {known : List Wire}
    {ops : List (Operation K)} (h : r.Recorded session known ops) (secret publics : Assignment K)
    {y : Array (Fp K)} : r.solve (r.seed secret publics) = .ok y ↔
      Operation.execute? (r.inputValues secret publics) ops = some y.toList := by
  obtain ⟨-, admissible, below, records⟩ := h
  have hlen := r.length_inputValues secret publics
  rw [records.solve_eq_ok_iff (records.size_seed secret publics)]
  have hstart : (∀ i < r.firstInternal, vectorAt y i = vectorAt (r.seed secret publics) i) ↔
      HoldsFrom (vectorAt y) 0 (r.inputValues secret publics) := by
    rw [holdsFrom_zero_iff, hlen]
    exact forall₂_congr fun i hi => by rw [ConstraintSystem.vectorAt_seed _ _ hi]
  have hitems : HoldsFrom (vectorAt y) 0 (r.inputValues secret publics) →
      (ItemsHold (vectorAt y) r.firstInternal (itemsOf session r.firstInternal ops) ↔
        ∃ ys, Operation.execute? (r.inputValues secret publics) ops = some ys ∧
          HoldsFrom (vectorAt y) 0 ys) := by
    intro holds
    rw [← hlen] at admissible below ⊢
    exact admissible.itemsHold_iff below holds.1 holds
  have hys : ∀ {ys}, Operation.execute? (r.inputValues secret publics) ops = some ys →
      ys.length = r.numWires := by
    intro ys h
    rw [length_execute? session h, hlen, records.numWires]
  rw [hstart]
  constructor
  · rintro ⟨size, holds, items⟩
    obtain ⟨ys, hexec, hall⟩ := (hitems holds).1 items
    rw [hexec, (eq_toArray_iff (size.trans (hys hexec).symm)).1 hall]
  · intro hexec
    have size : y.size = r.numWires := hys hexec
    have hall : HoldsFrom (vectorAt y) 0 y.toList := (eq_toArray_iff rfl).2 rfl
    obtain ⟨rest, hrest⟩ := Admissible.exists_append_of_execute? hexec
    have holds : HoldsFrom (vectorAt y) 0 (r.inputValues secret publics) := by
      rw [← hrest] at hall
      exact (holdsFrom_append.1 hall).1
    exact ⟨size, holds, (hitems holds).2 ⟨_, hexec, hall⟩⟩

/-- **Assigning is direct execution.**  Let a circuit be compiled from calls that were all
successful, and let exactly the declared names have values.  Then there is a witness exactly if the
operations can be carried out on these values, and it is what they give; it passes the check, its
input wires hold the values of their names, and every result has the values that its operation
names.  If the operations cannot be carried out, a violated row is reported. -/
theorem assign_eq_execute {c : Circuit K} {modulus : Modulus} {session : Nat}
    {calls : List (Call K)} {r : R1CS K} (compilation : Compilation c modulus session calls r)
    (successful : ∀ call ∈ calls, call.Successful) {secret publics : Assignment K}
    (givesPublics : publics.Gives (c.schema.names .public))
    (givesSecret : secret.Gives (c.schema.names .secret)) :
    (∀ w, r.assign secret publics = .ok w ↔ ∃ ys,
      Operation.execute? (r.inputValues secret publics) (calls.map (·.operation)) = some ys ∧
      w = ⟨ys.toArray, r.numPublic, r.digest, r.modulus⟩) ∧
    (∀ w, r.assign secret publics = .ok w → r.check w.values = .ok () ∧
      (∀ e ∈ (c.schema.inputsOf session).wires, w.values[e.2.index]? =
        if e.2.role = .public then publics.find? e.1 else secret.find? e.1) ∧
      ∀ call ∈ calls, ∃ result, call.outcome = .ok result ∧
        result.values (vectorAt w.values) =
          call.operation.values (·.eval (vectorAt w.values))) ∧
    (Operation.execute? (r.inputValues secret publics) (calls.map (·.operation)) = none →
      ∃ u, r.assign secret publics = .report (.unsatisfied u)) := by
  obtain ⟨ops, recorded, hcalls⟩ := compilation.exists_recorded
  obtain ⟨rfl, houtcomes⟩ := hcalls successful
  have hnames := compilation.names
  have hassign := r.assign_eq recorded.modulus (hnames.1 ▸ givesPublics) (hnames.2 ▸ givesSecret)
  have hsolve := fun y => recorded.solve_eq_ok_iff secret publics (y := y)
  have hok : ∀ w, r.assign secret publics = .ok w ↔ ∃ y,
      r.solve (r.seed secret publics) = .ok y ∧ w = ⟨y, r.numPublic, r.digest, r.modulus⟩ := by
    intro w
    rw [hassign]
    cases r.solve (r.seed secret publics) with
    | ok y => simp [Except.map, eq_comm]
    | error e => simp [Outcome.mapError, Except.mapError, Except.map]
  refine ⟨fun w => ?_, fun w hw => ?_, fun hnone => ?_⟩
  · rw [hok]
    constructor
    · rintro ⟨y, hy, rfl⟩
      exact ⟨y.toList, (hsolve y).1 hy, rfl⟩
    · rintro ⟨ys, hys, rfl⟩
      exact ⟨ys.toArray, (hsolve _).2 hys, rfl⟩
  · obtain ⟨y, hy, rfl⟩ := (hok w).1 hw
    obtain ⟨-, admissible, below, records⟩ := recorded
    obtain ⟨size, hstart, items⟩ := (records.solve_eq_ok_iff (records.size_seed secret publics)).1 hy
    have one : vectorAt y 0 = 1 := by
      rw [hstart 0 (Nat.succ_pos _), ConstraintSystem.vectorAt_seed _ _ (Nat.succ_pos _)]
      rfl
    have possible := admissible.possible_of_itemsHold one items
    refine ⟨(records.check_eq_ok_iff size).2 items.rowsHold, fun e he => ?_, fun call mem => ?_⟩
    · obtain ⟨rest, hrest⟩ := Admissible.exists_append_of_execute? ((hsolve y).1 hy)
      have hlt : e.2.index < (r.inputValues secret publics).length := by
        rw [r.length_inputValues]
        exact below.lt e.2 (List.mem_map_of_mem he)
      rw [← getElem?_inputValues hnames.1 hnames.2 givesPublics givesSecret he,
        ← Array.getElem?_toList, ← hrest, List.getElem?_append_left hlt]
    · obtain ⟨result, hout, hzip⟩ := exists_result_of_outcomes houtcomes call mem
      exact ⟨result, hout, (admissible.values_results one (fun op hop => (possible op hop).divides)
        items.rowsHold _ hzip).2⟩
  · have hnot : ∀ y, r.solve (r.seed secret publics) ≠ .ok y := by
      intro y hy
      rw [(hsolve y).1 hy] at hnone
      cases hnone
    obtain ⟨u, hu⟩ :=
      recorded.records.solve_eq_report (recorded.records.size_seed secret publics) hnot
    refine ⟨u, ?_⟩
    rw [hassign, hu]
    rfl

end

/-! ## Two assignments -/

namespace Sample

/-- A value for the public input. -/
def publics (y : Nat) : Assignment field := Dictionary.empty.insert "y" (y : Fp field)

/-- A value for the secret input. -/
def secret (x : Nat) : Assignment field := Dictionary.empty.insert "x" (x : Fp field)

theorem gives_publics (y : Nat) : (publics y).Gives (schema.names .public) := fun _ => Iff.rfl

theorem gives_secret (x : Nat) : (secret x).Gives (schema.names .secret) := fun _ => Iff.rfl

theorem inputValues_eq {r : R1CS field} (h : Compilation circuit field.descriptor 1 calls r)
    (x y : Nat) : r.inputValues (secret x) (publics y) = [1, (y : Fp field), (x : Fp field)] := by
  rw [ConstraintSystem.inputValues, h.names.1, h.names.2]
  rfl

theorem map_operation_calls : calls.map (·.operation) = operations := rfl

/-- The wires for `x = 3` and `y = 8`. -/
def assignedWires : Array (Fp field) := #[1, 8, 3, 65, 0, 0, 65, 35, 1, 1, 0, 0, 0, 0, 9, 72]

theorem assign_eq {r : R1CS field} (h : Compilation circuit field.descriptor 1 calls r) :
    r.assign (secret 3) (publics 8) = .ok ⟨assignedWires, r.numPublic, r.digest, r.modulus⟩ := by
  obtain ⟨ops, recorded, hcalls⟩ := h.exists_recorded
  obtain ⟨rfl, -⟩ := hcalls (successful_callsOf 1 3 operations)
  have hsolve : r.solve (r.seed (secret 3) (publics 8)) = .ok assignedWires := by
    rw [recorded.solve_eq_ok_iff, inputValues_eq h, map_operation_calls]
    decide +kernel
  have hnames := h.names
  rw [R1CS.assign_eq recorded.modulus (hnames.1 ▸ gives_publics 8) (hnames.2 ▸ gives_secret 3),
    hsolve]
  rfl

end Sample

/-- The circuit has a witness for `x = 3` and `y = 8`, and none for `x = 80` and `y = 85`, which
does not fit into six bits. -/
theorem assign_eq_execute_sample :
    ∃ r, Compilation Sample.circuit Sample.field.descriptor 1 Sample.calls r ∧
      (∀ call ∈ Sample.calls, call.Successful) ∧
      (Sample.publics 8).Gives (Sample.circuit.schema.names .public) ∧
      (Sample.secret 3).Gives (Sample.circuit.schema.names .secret) ∧
      (∃ w, r.assign (Sample.secret 3) (Sample.publics 8) = .ok w ∧
        w.values = #[1, 8, 3, 65, 0, 0, 65, 35, 1, 1, 0, 0, 0, 0, 9, 72] ∧
        r.check w.values = .ok ()) ∧
      ∃ u, r.assign (Sample.secret 80) (Sample.publics 85) = .report (.unsatisfied u) := by
  obtain ⟨r, h⟩ := Sample.exists_compilation
  have successful := successful_callsOf 1 3 Sample.operations
  obtain ⟨hok, hcheck, -⟩ := assign_eq_execute h successful (Sample.gives_publics 8)
    (Sample.gives_secret 3)
  obtain ⟨-, -, hnone⟩ := assign_eq_execute h successful (Sample.gives_publics 85)
    (Sample.gives_secret 80)
  rw [Sample.inputValues_eq h] at hok hnone
  have hassign := (hok _).2 ⟨[1, 8, 3, 65, 0, 0, 65, 35, 1, 1, 0, 0, 0, 0, 9, 72],
    by rw [Sample.map_operation_calls]; decide +kernel, rfl⟩
  refine ⟨r, h, successful, Sample.gives_publics 8, Sample.gives_secret 3,
    ⟨_, hassign, rfl, (hcheck _ hassign).1⟩, hnone ?_⟩
  rw [Sample.map_operation_calls]
  decide +kernel

end Groth16
