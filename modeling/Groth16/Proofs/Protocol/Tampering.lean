import Groth16.Proofs.Protocol.Verifier

/-!
# Accepted proofs cannot be altered

The points of a proof and the point that the public inputs come to are tied together by one equation.
Of these four, every three determine the last one, since no point of an accepted proof and neither `γ`
nor `δ` is zero.  Nothing is assumed on where the proof comes from.

* `verifyWithInputs_eq_ok_true_iff`: which proofs are accepted.
* `instanceSum_sub`: how the point of the public inputs moves with them.
* `Generated.exists_accepted`: for all public inputs there are accepted proofs.
* `accepted_proofs_not_malleable`: what stays accepted if a point or the inputs are replaced.
-/

set_option autoImplicit false

namespace Groth16

open Finset ScalarGroup

variable {K : PrimeField} {G₁ G₂ T : Type} [ScalarGroup K G₁] [ScalarGroup K G₂]
  [Pairing K G₁ G₂ T]

/-! ## What is accepted -/

/-- A proof is accepted if there is an input for each instance point but the first, its points are
finite and the check passes. -/
theorem verifyWithInputs_eq_ok_true_iff [Workers] {pvk : PreparedKey G₁ G₂ T} {proof : Proof G₁ G₂}
    {inputs : List (Fp K)} :
    verifyWithInputs pvk proof inputs = .ok true ↔
      ∃ first rest, pvk.vk.instancePoints = first :: rest ∧ inputs.length = rest.length ∧
        proof.a ≠ 0 ∧ proof.b ≠ 0 ∧ proof.c ≠ 0 ∧
        pvk.accepts proof (instanceSum first rest inputs) = true := by
  constructor
  · intro h
    rcases verifyWithInputs_cases pvk proof inputs with ⟨-, hrun⟩ | ⟨-, -, hrun⟩ |
      ⟨first, rest, hpoints, hlength, -, finite, hrun⟩
    · cases hrun.symm.trans h
    · cases hrun.symm.trans h
    · rw [Proof.Malformed, not_or, not_or] at finite
      exact ⟨first, rest, hpoints, hlength, finite.1, finite.2.1, finite.2.2,
        Except.ok.inj (hrun.symm.trans h)⟩
  · rintro ⟨first, rest, hpoints, hlength, ha, hb, hc, haccepts⟩
    rw [verifyWithInputs_of_wellFormed hpoints hlength (not_or.2 ⟨ha, not_or.2 ⟨hb, hc⟩⟩), haccepts]

omit [ScalarGroup K G₂] [Pairing K G₁ G₂ T] in
/-- A sum of multiples, by positions. -/
theorem msm_eq_sum_range [LawfulScalarGroup K G₁] (workers : Nat) (bases : List G₁)
    (scalars : List (Fp K)) :
    msm workers bases scalars =
      ∑ i ∈ range bases.length, listAt scalars i • bases.getD i 0 := by
  rw [msm_eq_sum]
  induction bases generalizing scalars with
  | nil => rfl
  | cons b bases ih =>
    rw [List.length_cons, sum_range_succ']
    cases scalars with
    | nil =>
      simp only [listAt_nil, zero_smul, sum_const_zero, add_zero]
      rfl
    | cons x scalars =>
      have hcons : plainSum (b :: bases) (x :: scalars) = x • b + plainSum bases scalars :=
        List.sum_cons
      rw [hcons, ih, add_comm]
      rfl

omit [ScalarGroup K G₂] [Pairing K G₁ G₂ T] in
/-- The point of the public inputs moves by the multiples of the instance points by what is added to
the inputs. -/
theorem instanceSum_sub [Workers] [LawfulScalarGroup K G₁] (first : G₁) (rest : List G₁)
    (inputs inputs' : List (Fp K)) :
    instanceSum first rest inputs' - instanceSum first rest inputs =
      ∑ i ∈ range rest.length,
        (listAt inputs' i - listAt inputs i) • (first :: rest).getD (i + 1) 0 := by
  rw [instanceSum, instanceSum, msm_eq_sum_range, msm_eq_sum_range, add_sub_add_left_eq_sub,
    ← sum_sub_distrib]
  refine sum_congr rfl fun i _ => ?_
  rw [sub_smul, List.getD_cons_succ]

/-! ## Altered points -/

section
variable [prime : Fact K.modulus.Prime] [CommGroup T] [left : LawfulScalarGroup K G₁]
  [right : LawfulScalarGroup K G₂] [lawful : LawfulPairing K G₁ G₂ T] {s : R1CS K}
  {t : ToxicWaste K} {d : Domain K} {q : Qap.Evaluations K} {pk : ProvingKey G₁ G₂}

/-- Whether a proof is accepted, by the scalars of its points and of the point `i` of the public
inputs. -/
theorem Generated.verifyWithInputs_smul_iff [Workers] (keys : Generated s t d q pk) {first : G₁}
    {rest : List G₁} (points : pk.vk.instancePoints = first :: rest) {inputs : List (Fp K)}
    (length : inputs.length = rest.length) {i : Fp K}
    (known : i • generator = instanceSum first rest inputs) (a b c : Fp K) :
    verifyWithInputs (pk.vk.prepare : PreparedKey G₁ G₂ T)
        ⟨a • generator, b • generator, c • generator⟩ inputs = .ok true ↔
      (a ≠ 0 ∧ b ≠ 0 ∧ c ≠ 0) ∧ a * b = t.alpha * t.beta + i * t.gamma + c * t.delta := by
  rw [verifyWithInputs_eq_ok_true_iff, ← keys.accepts_iff, known]
  have hprepared : (pk.vk.prepare : PreparedKey G₁ G₂ T).vk = pk.vk := rfl
  simp only [hprepared, points, ne_eq, smul_generator_eq_zero_iff]
  constructor
  · rintro ⟨first', rest', h, -, ha, hb, hc, haccepts⟩
    obtain ⟨rfl, rfl⟩ := List.cons.inj h
    exact ⟨⟨ha, hb, hc⟩, haccepts⟩
  · rintro ⟨⟨ha, hb, hc⟩, haccepts⟩
    exact ⟨first, rest, rfl, length, ha, hb, hc, haccepts⟩

/-- **For all public inputs there are accepted proofs**, whether or not there is a witness: who knows
the secrets of the key can forge them. -/
theorem Generated.exists_accepted [Workers] (keys : Generated s t d q pk)
    (inside : s.numInstance ≤ s.numWires) (two : (2 : Fp K) ≠ 0) {inputs : List (Fp K)}
    (length : inputs.length = s.numPublic) :
    ∃ proof, verifyWithInputs (pk.vk.prepare : PreparedKey G₁ G₂ T) proof inputs = .ok true := by
  obtain ⟨first, rest, hpoints, hrest, -⟩ := keys.exists_instancePoints inside
  obtain ⟨i, hi⟩ := left.exists_smul_generator (instanceSum first rest inputs)
  -- With the second scalar one, the third determines the first, which one choice of two keeps from zero.
  obtain ⟨c, hc, ha⟩ : ∃ c : Fp K, c ≠ 0 ∧ t.alpha * t.beta + i * t.gamma + c * t.delta ≠ 0 := by
    by_cases hone : t.alpha * t.beta + i * t.gamma + 1 * t.delta = 0
    · refine ⟨2, two, fun htwo => keys.delta_ne_zero ?_⟩
      linear_combination htwo - hone
    · exact ⟨1, one_ne_zero, hone⟩
  refine ⟨⟨(t.alpha * t.beta + i * t.gamma + c * t.delta) • generator, (1 : Fp K) • generator,
    c • generator⟩, ?_⟩
  rw [keys.verifyWithInputs_smul_iff hpoints (length.trans hrest.symm) hi, mul_one]
  exact ⟨⟨ha, one_ne_zero, hc⟩, rfl⟩

/-- **Accepted proofs cannot be altered.**  Let keys be generated for a constraint system, from any
secrets, and let a proof be accepted for some public inputs, however it was found.  With one of its
points replaced by another point it is not accepted any more; and for other inputs, as many as before,
it is accepted exactly if the multiples of the instance points by the differences of the inputs add up
to zero. -/
theorem accepted_proofs_not_malleable [Workers] (generated : generateKeys s t = .ok pk)
    {proof : Proof G₁ G₂} {inputs : List (Fp K)}
    (accepted : verifyWithInputs (pk.vk.prepare : PreparedKey G₁ G₂ T) proof inputs = .ok true) :
    (∀ a ≠ proof.a, verifyWithInputs (pk.vk.prepare : PreparedKey G₁ G₂ T)
      { proof with a := a } inputs ≠ .ok true) ∧
    (∀ b ≠ proof.b, verifyWithInputs (pk.vk.prepare : PreparedKey G₁ G₂ T)
      { proof with b := b } inputs ≠ .ok true) ∧
    (∀ c ≠ proof.c, verifyWithInputs (pk.vk.prepare : PreparedKey G₁ G₂ T)
      { proof with c := c } inputs ≠ .ok true) ∧
    ∀ inputs' : List (Fp K), inputs'.length = inputs.length →
      (verifyWithInputs (pk.vk.prepare : PreparedKey G₁ G₂ T) proof inputs' = .ok true ↔
        ∑ i ∈ range inputs.length,
          (listAt inputs' i - listAt inputs i) • pk.vk.instancePoints.getD (i + 1) 0 = 0) := by
  obtain ⟨d, q, keys⟩ := generateKeys_eq_ok generated
  obtain ⟨first, rest, hpoints, hlength, -⟩ := verifyWithInputs_eq_ok_true_iff.1 accepted
  have hpoints : pk.vk.instancePoints = first :: rest := hpoints
  obtain ⟨A, B, C⟩ := proof
  obtain ⟨a, rfl⟩ := left.exists_smul_generator A
  obtain ⟨b, rfl⟩ := right.exists_smul_generator B
  obtain ⟨c, rfl⟩ := left.exists_smul_generator C
  obtain ⟨i, hi⟩ := left.exists_smul_generator (instanceSum first rest inputs)
  have hiff := keys.verifyWithInputs_smul_iff (T := T) hpoints hlength hi
  obtain ⟨⟨ha, hb, hc⟩, heq⟩ := (hiff a b c).1 accepted
  refine ⟨fun A' hne h => hne ?_, fun B' hne h => hne ?_, fun C' hne h => hne ?_,
    fun inputs' length' => ?_⟩
  · obtain ⟨a', rfl⟩ := left.exists_smul_generator A'
    have heq' := ((hiff a' b c).1 h).2
    rw [mul_right_cancel₀ hb (heq'.trans heq.symm)]
  · obtain ⟨b', rfl⟩ := right.exists_smul_generator B'
    have heq' := ((hiff a b' c).1 h).2
    rw [mul_left_cancel₀ ha (heq'.trans heq.symm)]
  · obtain ⟨c', rfl⟩ := left.exists_smul_generator C'
    have heq' := ((hiff a b c').1 h).2
    have hdelta := add_left_cancel (heq'.symm.trans heq)
    rw [mul_right_cancel₀ keys.delta_ne_zero hdelta]
  · obtain ⟨i', hi'⟩ := left.exists_smul_generator (instanceSum first rest inputs')
    have hmoved : ∑ j ∈ range inputs.length, (listAt inputs' j - listAt inputs j) •
        pk.vk.instancePoints.getD (j + 1) 0 = (i' - i) • (generator : G₁) := by
      rw [hpoints, hlength, ← instanceSum_sub, ← hi, ← hi', sub_smul]
    rw [keys.verifyWithInputs_smul_iff hpoints (length'.trans hlength) hi', hmoved,
      smul_generator_eq_zero_iff, heq, sub_eq_zero]
    constructor
    · rintro ⟨-, h⟩
      have hgamma := add_left_cancel (add_right_cancel h)
      exact (mul_right_cancel₀ keys.gamma_ne_zero hgamma).symm
    · rintro rfl
      exact ⟨⟨ha, hb, hc⟩, rfl⟩

end

/-- For the input eight of the circuit there is an accepted proof; with the generator added to its
third point it is not accepted. -/
theorem accepted_proofs_not_malleable_sample :
    ∃ r, Compilation Sample.circuit Sample.field.descriptor 1 Sample.calls r ∧
      ∃ pk : ProvingKey (Logarithm Sample.field) (Logarithm Sample.field),
        generateKeys r Sample.secrets = .ok pk ∧
        ∃ proof, verifyWithInputs pk.vk.prepare proof [.ofNat Sample.field 8] = .ok true ∧
          verifyWithInputs pk.vk.prepare { proof with c := proof.c + generator }
            [.ofNat Sample.field 8] ≠ .ok true := by
  obtain ⟨r, h⟩ := Sample.exists_compilation
  obtain ⟨pk, hkeys⟩ := Sample.exists_keys h
  obtain ⟨ops, recorded, -⟩ := h.exists_recorded
  obtain ⟨d, q, keys⟩ := generateKeys_eq_ok hkeys
  have hpublic : [Fp.ofNat Sample.field 8].length = r.numPublic := by
    rw [ConstraintSystem.numPublic, h.names.1]
    rfl
  obtain ⟨proof, haccepted⟩ := keys.exists_accepted (T := Multiplicative (Fp Sample.field))
    recorded.numInstance_le (by decide) hpublic
  have hother : proof.c + generator ≠ proof.c := fun heq =>
    LawfulScalarGroup.generator_ne_zero (left_eq_add.1 heq.symm)
  exact ⟨r, h, pk, hkeys, proof, haccepted,
    (accepted_proofs_not_malleable hkeys haccepted).2.2.1 _ hother⟩

end Groth16
