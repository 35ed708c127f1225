import Groth16.Proofs.Circuit.Execution
import Groth16.Proofs.Outcome

/-!
# Witnesses of a system

* `R1CS.IsWitness`: a vector of all wires, marked for the system, that passes the check.
* `R1CS.Recorded.isWitness_of_assign`: what is assigned is a witness, and its public part is the
  public witness of the same inputs.
* `R1CS.IsWitness.satisfies`, `numInstance_le`: what the prover needs of it.
-/

set_option autoImplicit false

namespace Groth16

variable {K : PrimeField}

/-- The vector has all wires of the system, the one-wire holds one, the check passes, and the marks
are those of the system. -/
structure R1CS.IsWitness (r : R1CS K) (w : Witness K) : Prop where
  /-- It has all wires. -/
  size : w.values.size = r.numWires
  /-- The one-wire holds one. -/
  one : w.values[0]? = some 1
  /-- Every constraint holds. -/
  check : r.check w.values = .ok ()
  /-- It has the public inputs of the system. -/
  numPublic : w.numPublic = r.numPublic
  /-- It has the digest of the system. -/
  digest : w.digest = r.digest
  /-- It is over the field of the system. -/
  modulus : w.modulus = r.modulus

namespace R1CS

variable {r : R1CS K} {w w' : Witness K} {session : Nat} {known : List Wire}
  {ops : List (Operation K)}

theorem Recorded.numInstance_le (h : r.Recorded session known ops) : r.numInstance ≤ r.numWires := by
  rw [h.records.numWires, ConstraintSystem.firstInternal, ConstraintSystem.numInstance]
  omega

namespace IsWitness

theorem vectorAt_zero (h : r.IsWitness w) : vectorAt w.values 0 = 1 := vectorAt_of_getElem? h.one

theorem satisfies (h : r.IsWitness w) (recorded : r.Recorded session known ops) :
    r.Satisfies (vectorAt w.values) :=
  recorded.records.satisfies_iff.2 ((recorded.records.check_eq_ok_iff h.size).1 h.check)

theorem below (h : r.IsWitness w) (recorded : r.Recorded session known ops) :
    ∀ c ∈ r.constraints.toList, c.Below w.values.size := by
  rw [h.size]
  exact recorded.records.below

/-- The values of the public part. -/
theorem listAt_publicPart (h : r.IsWitness w) {i : Nat} (hi : i < r.numPublic) :
    listAt w.publicPart.values i = vectorAt w.values (i + 1) := by
  rw [Witness.publicPart, listAt, List.getD_eq_getElem?_getD, List.getElem?_take_of_lt
    (by rwa [h.numPublic]), List.getElem?_drop, ← List.getD_eq_getElem?_getD, ← listAt,
    listAt_toList, Nat.add_comm]

theorem length_publicPart (h : r.IsWitness w) (inside : r.numInstance ≤ r.numWires) :
    w.publicPart.values.length = r.numPublic := by
  rw [ConstraintSystem.numInstance] at inside
  rw [Witness.publicPart, List.length_take, List.length_drop, Array.length_toList, h.size,
    h.numPublic]
  omega

/-- Witnesses with one public part agree on the instance wires. -/
theorem eq_of_publicPart (h : r.IsWitness w) (h' : r.IsWitness w')
    (same : w.publicPart = w'.publicPart) {i : Nat} (hi : i < r.numInstance) :
    vectorAt w.values i = vectorAt w'.values i := by
  cases i with
  | zero => rw [h.vectorAt_zero, h'.vectorAt_zero]
  | succ i =>
    have hi' : i < r.numPublic := Nat.lt_of_succ_lt_succ hi
    rw [← h.listAt_publicPart hi', ← h'.listAt_publicPart hi', same]

end IsWitness

/-- What is assigned consists of the inputs and a solution for them. -/
theorem assign_eq_ok {secret publics : Assignment K} (h : r.assign secret publics = .ok w) :
    r.modulus.ensure K = .ok () ∧
      publics.checkNames r.publicNames .public r.secretNames .secret = .ok () ∧
      ∃ z, r.solve (r.seed secret publics) = .ok z ∧ w = ⟨z, r.numPublic, r.digest, r.modulus⟩ := by
  obtain ⟨⟨⟩, hcheck, h⟩ := Outcome.bind_eq_ok.1 h
  obtain ⟨z, hz, h⟩ := Outcome.bind_eq_ok.1 h
  rw [Outcome.ofExcept_eq_ok, checkInputs] at hcheck
  obtain ⟨⟨⟩, hmodulus, hcheck⟩ := Outcome.bind_eq_ok.1 hcheck
  obtain ⟨⟨⟩, hpublics, -⟩ := Outcome.bind_eq_ok.1 hcheck
  refine ⟨?_, hpublics, z, Outcome.mapError_eq_ok.1 hz, (Except.ok.inj h).symm⟩
  rw [Modulus.ensure] at hmodulus ⊢
  split at hmodulus
  · next hfor => rw [if_pos hfor]
  · cases hmodulus

/-- **What is assigned is a witness**, and its public part is the public witness of the inputs. -/
theorem Recorded.isWitness_of_assign (recorded : r.Recorded session known ops)
    {secret publics : Assignment K} (h : r.assign secret publics = .ok w) :
    r.IsWitness w ∧ r.publicWitness publics = .ok w.publicPart := by
  obtain ⟨hmodulus, hpublics, z, hz, rfl⟩ := assign_eq_ok h
  obtain ⟨size, hstart, items⟩ :=
    (recorded.records.solve_eq_ok_iff (recorded.records.size_seed secret publics)).1 hz
  have hinput : ∀ i < r.firstInternal, vectorAt z i = listAt (r.inputValues secret publics) i := by
    intro i hi
    rw [hstart i hi, ConstraintSystem.vectorAt_seed secret publics hi]
  have hpos : 0 < z.size := by
    have := recorded.numInstance_le
    rw [size, ← Nat.succ_le_iff]
    exact Nat.le_trans (Nat.le_add_left 1 _) this
  have hwitness : r.IsWitness ⟨z, r.numPublic, r.digest, r.modulus⟩ := by
    refine ⟨size, ?_, (recorded.records.check_eq_ok_iff size).2 items.rowsHold, rfl, rfl, rfl⟩
    rw [getElem?_eq_vectorAt hpos, hinput 0 (Nat.succ_pos _)]
    rfl
  refine ⟨hwitness, ?_⟩
  have hlength : (publics.valuesOf r.publicNames).length = r.numPublic := List.length_map ..
  have hvalues : publics.valuesOf r.publicNames =
      (Witness.publicPart ⟨z, r.numPublic, r.digest, r.modulus⟩).values := by
    refine List.ext_getElem (hlength.trans (hwitness.length_publicPart
      recorded.numInstance_le).symm) fun i hi hi' => ?_
    have hi'' : i < r.numPublic := by rwa [hlength] at hi
    have hlt : i + 1 < r.firstInternal := by
      rw [ConstraintSystem.firstInternal]
      omega
    have hright := hwitness.listAt_publicPart hi''
    rw [hinput (i + 1) hlt, ConstraintSystem.inputValues, listAt_cons_succ,
      listAt_append_left hi] at hright
    rw [listAt_of_getElem? (List.getElem?_eq_getElem hi),
      listAt_of_getElem? (List.getElem?_eq_getElem hi')] at hright
    exact hright.symm
  rw [publicWitness, hmodulus]
  change (do
    publics.checkNames r.publicNames .public r.secretNames .secret
    return ⟨publics.valuesOf r.publicNames, r.digest, r.modulus⟩ : Except _ (PublicWitness K)) = _
  rw [hpublics, hvalues]
  rfl

end R1CS

end Groth16
