import Groth16.Circuit.Known
import Groth16.Proofs.Circuit.Witnesses
import Groth16.Proofs.Field.Known

/-!
# What the threshold circuit decides

The circuit `Circuit.threshold bits` decomposes the difference of a secret value and a public
threshold.  The difference is taken in the field, so it fits into the bits not only where the value
reaches the threshold: a value far below the threshold wraps around the modulus and can come out
small again.

* `Fp.val_sub_lt_iff`: when a difference is small, for the canonical integers.
* `Threshold.exists_compilation`: the circuit compiles to a subtraction and a decomposition.
* `Threshold.exists_solution_iff`, `Threshold.exists_assign_iff`: it has a satisfying vector, and a
  witness, exactly if the difference in the field fits.
* `threshold_decides_difference`: the circuit decides exactly this, which is the comparison of
  integers unless the value is below the threshold by almost the modulus.
* `Threshold.zero_reaches_largest`: in eight bits, zero reaches the largest threshold.
-/

set_option autoImplicit false

namespace Groth16

open LinearCombination (ofWire)

variable {K : PrimeField}

/-! ## Differences of canonical integers -/

namespace Fp

/-- Where the difference of the canonical integers is negative, it wraps around. -/
theorem val_sub_eq_ite (a b : Fp K) : (a - b).val =
    if b.val ≤ a.val then a.val - b.val else K.modulus - (b.val - a.val) := by
  have ha := a.isLt
  have hb := b.isLt
  rw [val_sub]
  split
  · have hsum : a.val + (K.modulus - b.val) = a.val - b.val + K.modulus := by omega
    rw [hsum, Nat.add_mod_right, Nat.mod_eq_of_lt (by omega)]
  · rw [Nat.mod_eq_of_lt (by omega)]
    omega

/-- A difference is small exactly if that of the integers is, or if it is negative and almost the
modulus. -/
theorem val_sub_lt_iff {a b : Fp K} {m : Nat} : (a - b).val < m ↔
    b.val ≤ a.val ∧ a.val - b.val < m ∨ a.val < b.val ∧ K.modulus - (b.val - a.val) < m := by
  rw [val_sub_eq_ite]
  split
  · omega
  · omega

end Fp

namespace Threshold

/-! ## The definition -/

/-- The wire of the value. -/
def value (K : PrimeField) (session : Nat) : LinearCombination K := ofWire ⟨2, .secret, session⟩

/-- The wire of the threshold. -/
def threshold (K : PrimeField) (session : Nat) : LinearCombination K :=
  ofWire ⟨1, .public, session⟩

/-- The difference of the two. -/
def difference (K : PrimeField) (session : Nat) : LinearCombination K :=
  value K session - threshold K session

theorem eval_difference (session : Nat) (z : Nat → Fp K) :
    (difference K session).eval z = z 2 - z 1 := by
  rw [difference, LinearCombination.eval_sub, value, threshold, LinearCombination.eval_ofWire,
    LinearCombination.eval_ofWire]

/-- The operations of the definition. -/
def operations (K : PrimeField) (session bits : Nat) : List (Operation K) :=
  [.sub (value K session) (threshold K session), .toBinary (difference K session) bits]

/-- The calls that it makes. -/
def calls (K : PrimeField) (session bits : Nat) : List (Call K) :=
  callsOf session 3 (operations K session bits)

/-- The builder with the wires of the inputs. -/
def declared (K : PrimeField) (session : Nat) : Builder K := ⟨session, 3, true, #[], #[]⟩

/-- The builder with the decomposition. -/
def decomposed (K : PrimeField) (session bits : Nat) : Builder K :=
  (declared K session).record ((Operation.toBinary (difference K session) bits).items session 3)

theorem owned_value (session : Nat) : Build.Owned (declared K session) (value K session) := by
  simp [Build.Owned, value, Build.owns_iff, declared]

theorem owned_threshold (session : Nat) :
    Build.Owned (declared K session) (threshold K session) := by
  simp [Build.Owned, threshold, Build.owns_iff, declared]

theorem owned_difference (session : Nat) :
    Build.Owned (declared K session) (difference K session) :=
  LinearCombination.Within.sub (owned_value session) (owned_threshold session)

theorem runOn_sub (session : Nat) :
    Build.runOn (Build.sub (value K session) (threshold K session)) (declared K session) =
      (.ok (difference K session), declared K session) := by
  rw [Build.sub, Build.runOn_bind_eq_ok]
  refine ⟨_, _, Build.runOn_checked_eq_ok.2 ⟨owned_value session, rfl, rfl⟩, ?_⟩
  rw [Build.runOn_bind_eq_ok]
  exact ⟨_, _, Build.runOn_checked_eq_ok.2 ⟨owned_threshold session, rfl, rfl⟩, rfl⟩

section
variable {session bits : Nat} (pos : 0 < bits) (le : bits ≤ Build.maxBits K)
include pos le

theorem runOn_toBinary :
    Build.runOn (Build.toBinary (difference K session) bits) (declared K session) =
      (.ok (internalWires session 3 bits), decomposed K session bits) := by
  rw [Build.toBinary, Build.runOn_bind_eq_ok]
  refine ⟨_, _, Build.runOn_checked_eq_ok.2 ⟨owned_difference session, rfl, rfl⟩, ?_⟩
  have hwidth : ¬ (bits = 0 ∨ Build.maxBits K < bits) := by omega
  simp only [hwidth, if_false, Build.runOn_bind, Build.runOn_bits, Build.runOn_enforce,
    Build.runOn_pure, Builder.record_record]
  rfl

theorem runOn_define :
    Build.runOn ((Circuit.threshold bits).define
        ((Circuit.threshold bits : Circuit K).schema.inputsOf session)) (declared K session) =
      (.ok (), decomposed K session bits) := by
  show Build.runOn (do
    let d ← Build.sub (value K session) (threshold K session)
    discard (Build.toBinary d bits)) (declared K session) = _
  rw [Build.runOn_bind_eq_ok]
  exact ⟨_, _, runOn_sub session, Build.runOn_map_eq_ok.2 ⟨_, runOn_toBinary pos le, rfl⟩⟩

theorem trace : Trace [⟨1, .public, session⟩, ⟨2, .secret, session⟩] (declared K session)
    (calls K session bits) (decomposed K session bits) := by
  have hsub : Build.runOn (Operation.sub (value K session) (threshold K session)).run
      (declared K session) = (.ok (.value (difference K session)), declared K session) :=
    Build.runOn_map_eq_ok.2 ⟨_, runOn_sub session, rfl⟩
  have htoBinary : Build.runOn (Operation.toBinary (difference K session) bits).run
      (declared K session) =
        (.ok (.wires (internalWires session 3 bits)), decomposed K session bits) :=
    Build.runOn_map_eq_ok.2 ⟨_, runOn_toBinary pos le, rfl⟩
  refine .call (fun a ha w hw => .inr (.inl ?_)) hsub
    (.call (fun a ha w hw => .inr (.inl ?_)) htoBinary (.done _ _))
  · simp only [Operation.operands, List.mem_cons, List.not_mem_nil, or_false] at ha
    rcases ha with rfl | rfl
    · exact List.mem_of_mem_tail hw
    · exact List.mem_cons.2 (.inl (List.mem_singleton.1 hw))
  · obtain rfl := List.mem_singleton.1 ha
    exact List.mem_append_right _ hw

/-- **The circuit compiles** to a subtraction and a decomposition. -/
theorem exists_compilation (session : Nat) : ∃ r,
    Compilation (Circuit.threshold bits) K.descriptor session (calls K session bits) r := by
  have hbuild : Build.runOn (Circuit.declare (Circuit.threshold bits : Circuit K).schema >>=
      (Circuit.threshold bits).define) (Builder.fresh K session) =
        (.ok (), decomposed K session bits) := by
    rw [Build.runOn_bind, runOn_declare]
    exact runOn_define pos le
  have hpre : Circuit.precheck K K.descriptor (Circuit.threshold bits : Circuit K).schema =
      .ok () := by
    rw [Circuit.precheck, Modulus.ensure_descriptor]
    rfl
  exact ⟨_, Compilation.compile_ok hpre hbuild, _, _, _, runOn_declare _ session,
    runOn_define pos le, trace pos le⟩

end

theorem exists_recorded {session bits : Nat} {r : R1CS K}
    (h : Compilation (Circuit.threshold bits) K.descriptor session (calls K session bits) r) :
    ∃ known, r.Recorded session known (operations K session bits) ∧ r.firstInternal = 3 := by
  obtain ⟨ops, recorded, hcalls⟩ := h.exists_recorded
  obtain ⟨rfl, -⟩ := hcalls (successful_callsOf session 3 _)
  exact ⟨_, recorded, h.firstInternal_eq⟩

/-! ## Solutions -/

/-- A value for the secret input. -/
def secret (v : Fp K) : Assignment K := Dictionary.empty.insert "value" v

/-- A value for the public input. -/
def publics (t : Fp K) : Assignment K := Dictionary.empty.insert "threshold" t

/-- A vector of all wires of a system that passes the check, with given values on the wires of the
inputs. -/
structure Solution (r : R1CS K) (v t : Fp K) (z : Array (Fp K)) : Prop where
  /-- It has all wires. -/
  size : z.size = r.numWires
  /-- The one-wire holds one. -/
  one : z[0]? = some 1
  /-- The public input is the threshold. -/
  threshold : z[1]? = some t
  /-- The secret input is the value. -/
  value : z[2]? = some v
  /-- Every constraint holds. -/
  check : r.check z = .ok ()

section
variable [prime : Fact K.modulus.Prime] {session bits : Nat} {r : R1CS K}
  (h : Compilation (Circuit.threshold bits) K.descriptor session (calls K session bits) r)
include h

/-- The rows hold only where the difference fits. -/
theorem Solution.fits {v t : Fp K} {z : Array (Fp K)} (pos : 0 < bits) (le : bits ≤ Build.maxBits K)
    (solution : Solution r v t z) : (v - t).val < 2 ^ bits := by
  obtain ⟨known, recorded, hfirst⟩ := exists_recorded h
  have hrows := (recorded.records.check_eq_ok_iff solution.size).1 solution.check
  rw [operations, itemsOf, itemsOf, itemsOf, List.append_nil, rowsHold_append] at hrows
  have haccepted : (Operation.toBinary (difference K session) bits).Accepted := ⟨pos, le⟩
  have hpossible := ((Operation.rowsHold_iff (vectorAt_of_getElem? solution.one) haccepted trivial
    session _).1 hrows.2).1
  rwa [Operation.Possible, eval_difference, vectorAt_of_getElem? solution.value,
    vectorAt_of_getElem? solution.threshold] at hpossible

omit prime in
theorem inputValues_eq (v t : Fp K) : r.inputValues (secret v) (publics t) = [1, t, v] := by
  rw [ConstraintSystem.inputValues, h.names.1, h.names.2]
  rfl

omit h in
/-- The operations can be carried out exactly where the difference fits. -/
theorem execute?_eq (v t : Fp K) : Operation.execute? [1, t, v] (operations K session bits) =
    if (v - t).val < 2 ^ bits then some ([1, t, v] ++ (v - t).bitsOf bits) else none := by
  have heval : (difference K session).eval (listAt [1, t, v]) = v - t := eval_difference session _
  simp [operations, Operation.execute?, Operation.Possible, Operation.wireValues, heval]

/-- **A witness** consists of the inputs and the bits of the difference, and is there exactly if the
difference fits. -/
theorem assign_eq_ok_iff (v t : Fp K) (w : Witness K) :
    r.assign (secret v) (publics t) = .ok w ↔ (v - t).val < 2 ^ bits ∧
      w = ⟨([1, t, v] ++ (v - t).bitsOf bits).toArray, r.numPublic, r.digest, r.modulus⟩ := by
  obtain ⟨known, recorded, -⟩ := exists_recorded h
  have givesPublics : (publics t).Gives r.publicNames := h.names.1 ▸ fun _ => Iff.rfl
  have givesSecret : (secret v).Gives r.secretNames := h.names.2 ▸ fun _ => Iff.rfl
  have hsolve := fun y => recorded.solve_eq_ok_iff (secret v) (publics t) (y := y)
  simp only [inputValues_eq h, execute?_eq, Option.ite_none_right_eq_some] at hsolve
  rw [R1CS.assign_eq recorded.modulus givesPublics givesSecret]
  cases hz : r.solve (r.seed (secret v) (publics t)) with
  | ok z =>
    obtain ⟨fits, hlist⟩ := (hsolve z).1 hz
    obtain rfl : _ = z := congrArg List.toArray (Option.some.inj hlist)
    rw [and_iff_right fits]
    exact ⟨fun hw => (Except.ok.inj hw).symm, fun hw => congrArg _ hw.symm⟩
  | error e =>
    refine iff_of_false (fun hw => ?_) fun hw => ?_
    · cases hw
    · have hsome := (hsolve _).2 ⟨hw.1, rfl⟩
      rw [hz] at hsome
      cases hsome

theorem exists_assign_iff (v t : Fp K) :
    (∃ w, r.assign (secret v) (publics t) = .ok w) ↔ (v - t).val < 2 ^ bits := by
  simp [assign_eq_ok_iff h]

/-- What is assigned is a solution. -/
theorem solution_of_assign {v t : Fp K} {w : Witness K}
    (assigned : r.assign (secret v) (publics t) = .ok w) : Solution r v t w.values := by
  obtain ⟨known, recorded, -⟩ := exists_recorded h
  obtain ⟨witness, -⟩ := recorded.isWitness_of_assign assigned
  obtain ⟨-, hw⟩ := (assign_eq_ok_iff h v t w).1 assigned
  refine ⟨witness.size, witness.one, ?_, ?_, witness.check⟩
  · rw [hw]
    rfl
  · rw [hw]
    rfl

/-- **There is a solution exactly if the difference fits**, as there is a witness. -/
theorem exists_solution_iff (pos : 0 < bits) (le : bits ≤ Build.maxBits K) (v t : Fp K) :
    (∃ z, Solution r v t z) ↔ (v - t).val < 2 ^ bits := by
  constructor
  · rintro ⟨z, solution⟩
    exact solution.fits h pos le
  · intro fits
    obtain ⟨w, assigned⟩ := (exists_assign_iff h v t).2 fits
    exact ⟨_, solution_of_assign h assigned⟩

end

end Threshold

/-- **What the threshold circuit decides.**  In every number of bits for which there is room, the
circuit compiles.  For a value and a threshold there are a vector that satisfies the compiled system
and a witness exactly if the value is not below the threshold and the difference of their canonical
integers fits into the bits, or if the value is so far below the threshold that the difference fits
once the modulus is added.  Unless the latter is the case, it is the comparison of integers. -/
theorem threshold_decides_difference [prime : Fact K.modulus.Prime] {bits : Nat} (pos : 0 < bits)
    (le : bits ≤ Build.maxBits K) (session : Nat) :
    ∃ r, (Circuit.threshold bits : Circuit K).compile K.descriptor session = .ok r ∧
      ∀ v t : Fp K,
        ((∃ z, Threshold.Solution r v t z) ↔
          t.val ≤ v.val ∧ v.val - t.val < 2 ^ bits ∨
            v.val < t.val ∧ K.modulus - (t.val - v.val) < 2 ^ bits) ∧
        ((∃ w, r.assign (Threshold.secret v) (Threshold.publics t) = .ok w) ↔
          ∃ z, Threshold.Solution r v t z) ∧
        (¬ (v.val < t.val ∧ K.modulus - (t.val - v.val) < 2 ^ bits) →
          ((∃ z, Threshold.Solution r v t z) ↔
            t.val ≤ v.val ∧ v.val - t.val < 2 ^ bits)) := by
  obtain ⟨r, h⟩ := Threshold.exists_compilation pos le session
  refine ⟨r, h.compiled, fun v t => ?_⟩
  rw [Threshold.exists_assign_iff h, Threshold.exists_solution_iff h pos le]
  refine ⟨Fp.val_sub_lt_iff, Iff.rfl, fun hnot => ?_⟩
  rw [Fp.val_sub_lt_iff]
  exact or_iff_left hnot

/-- In eight bits, 21 reaches 18 and 17 does not. -/
theorem threshold_decides_difference_sample :
    0 < 8 ∧ 8 ≤ Build.maxBits bn254Scalar ∧
      ∃ r, (Circuit.threshold 8 : Circuit bn254Scalar).compile bn254Scalar.descriptor 1 = .ok r ∧
        (∃ w, r.assign (Threshold.secret 21) (Threshold.publics 18) = .ok w) ∧
        ¬ ∃ w, r.assign (Threshold.secret 17) (Threshold.publics 18) = .ok w := by
  have le : 8 ≤ Build.maxBits bn254Scalar := by decide +kernel
  obtain ⟨r, compiled, decides⟩ := threshold_decides_difference (by decide) le 1
  refine ⟨by decide, le, r, compiled, ?_, fun assigned => ?_⟩
  · exact (decides 21 18).2.1.2 ((decides 21 18).1.2 (.inl (by decide +kernel)))
  · have hbelow : ¬ ((18 : Fp bn254Scalar).val ≤ (17 : Fp bn254Scalar).val ∧
        (17 : Fp bn254Scalar).val - (18 : Fp bn254Scalar).val < 2 ^ 8) := by decide +kernel
    have hfar : ¬ ((17 : Fp bn254Scalar).val < (18 : Fp bn254Scalar).val ∧
        bn254Scalar.modulus - ((18 : Fp bn254Scalar).val - (17 : Fp bn254Scalar).val) < 2 ^ 8) := by
      decide +kernel
    exact hbelow (((decides 17 18).2.2 hfar).1 ((decides 17 18).2.1.1 assigned))

/-- **Zero reaches the largest threshold.**  The difference of the two is one modulo the modulus,
and with a decomposition into eight bits the circuit has a satisfying vector and a witness, although
the value is below the threshold. -/
theorem Threshold.zero_reaches_largest :
    ∃ r, (Circuit.threshold 8 : Circuit bn254Scalar).compile bn254Scalar.descriptor 1 = .ok r ∧
      (0 : Fp bn254Scalar).val < (-1 : Fp bn254Scalar).val ∧
      (∃ z, Threshold.Solution r 0 (-1) z) ∧
      ∃ w, r.assign (Threshold.secret 0) (Threshold.publics (-1)) = .ok w := by
  have pos : 0 < 8 := by decide
  have le : 8 ≤ Build.maxBits bn254Scalar := by decide +kernel
  obtain ⟨r, h⟩ := Threshold.exists_compilation pos le 1
  have fits : ((0 : Fp bn254Scalar) - -1).val < 2 ^ 8 := by decide +kernel
  exact ⟨r, h.compiled, by decide +kernel, (Threshold.exists_solution_iff h pos le 0 (-1)).2 fits,
    (Threshold.exists_assign_iff h 0 (-1)).2 fits⟩

end Groth16
