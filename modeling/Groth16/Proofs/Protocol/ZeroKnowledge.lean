import Groth16.Proofs.Protocol.Prover

/-!
# Proofs do not depend on the witness

Two witnesses with the same public part give the same proofs, each with blinding scalars of its own.
The scalars absorb the difference of the witnesses in the first two points; that the third point comes
out the same then is the equation `scalarC_mul_delta`, for both witnesses.

* `proveWith`: what a run of the prover gives where the source answers with two scalars.
* `existsUnique_blinding`: every scalar is blinded to every other one in exactly one way.
* `Generated.scalarC_congr`: the third scalar does not depend on the witness.
* `proofs_hide_witness`: for every proof from one witness there is exactly one pair of blinding scalars
  with which the other witness gives it.
-/

set_option autoImplicit false

namespace Groth16

open Finset ScalarGroup

variable {K : PrimeField} {G₁ G₂ : Type} [ScalarGroup K G₁] [ScalarGroup K G₂]

/-- The proof of a witness with given blinding scalars. -/
def proveWith [Workers] (s : R1CS K) (pk : ProvingKey G₁ G₂) (w : Witness K) (x y : Fp K) :
    Outcome ProvingError (Proof G₁ G₂) := do
  let h ← prepareProof s pk w
  return proofOf pk s.numInstance w.values.toList h.toList x y

variable [prime : Fact K.modulus.Prime]

omit [ScalarGroup K G₁] [ScalarGroup K G₂] in
/-- Every scalar is blinded to every other one in exactly one way. -/
theorem existsUnique_blinding {delta : Fp K} (h : delta ≠ 0) (a b : Fp K) :
    ∃! x, a + x * delta = b := by
  refine ⟨(b - a) * delta⁻¹, ?_, fun x hx => ?_⟩
  · dsimp only
    rw [mul_assoc, inv_mul_cancel₀ h, mul_one, add_sub_cancel]
  · rw [← hx, add_sub_cancel_left, mul_assoc, mul_inv_cancel₀ h, mul_one]

/-- The third scalar does not depend on the witness, but on the other two and the instance wires. -/
theorem Generated.scalarC_congr {s : R1CS K} {t : ToxicWaste K} {d : Domain K}
    {q : Qap.Evaluations K} {pk : ProvingKey G₁ G₂} (keys : Generated s t d q pk)
    (inside : s.numInstance ≤ s.numWires) {z z' : Nat → Fp K} {h h' : Array (Fp K)}
    (divides : Qap.Divides s.toConstraintSystem d z h)
    (divides' : Qap.Divides s.toConstraintSystem d z' h') {x y x' y' : Fp K}
    (same : ∀ i < s.numInstance, z i = z' i) (hA : scalarA t q z' x' = scalarA t q z x)
    (hB : scalarB t q z' y' = scalarB t q z y) :
    scalarC t q z' s.numInstance h' x' y' = scalarC t q z s.numInstance h x y := by
  have hinstance : instanceScalar t q z' s.numInstance = instanceScalar t q z s.numInstance :=
    sum_congr rfl fun i hi => by rw [same i (mem_range.1 hi)]
  refine mul_right_cancel₀ keys.delta_ne_zero ?_
  rw [scalarC_mul_delta keys inside divides', scalarC_mul_delta keys inside divides, hA, hB,
    hinstance]

/-- **Proofs hide the witness.**  Let a circuit be compiled and keys be generated for it, and let two
witnesses of it have the same public part.  For every pair of blinding scalars the prover gives a
proof from the first witness, and there is exactly one pair of blinding scalars with which it gives
the same proof from the second; and these are the proofs that runs of the prover end with, on every
source that answers with the scalars. -/
theorem proofs_hide_witness [Workers] [LawfulScalarGroup K G₁] [LawfulScalarGroup K G₂]
    {c : Circuit K} {modulus : Modulus} {session : Nat} {calls : List (Call K)} {r : R1CS K}
    (compilation : Compilation c modulus session calls r) {t : ToxicWaste K}
    {pk : ProvingKey G₁ G₂} (generated : generateKeys r t = .ok pk) {w w' : Witness K}
    (witness : r.IsWitness w) (witness' : r.IsWitness w') (same : w.publicPart = w'.publicPart) :
    (∀ x y : Fp K, ∃ proof, proveWith r pk w x y = .ok proof ∧
      ∃! p : Fp K × Fp K, proveWith r pk w' p.1 p.2 = .ok proof) ∧
    ∀ (x y : Fp K) {σ : Type} [RandomSource σ] {state state' : σ}, DrawsScalars x y state state' →
      (prove r pk w).runOn state = (proveWith r pk w x y, state') ∧
      (prove r pk w').runOn state = (proveWith r pk w' x y, state') := by
  obtain ⟨ops, recorded, -⟩ := compilation.exists_recorded
  obtain ⟨d, q, keys⟩ := generateKeys_eq_ok generated
  obtain ⟨h, hprepared, divides⟩ := prepareProof_ok keys recorded witness
  obtain ⟨h', hprepared', divides'⟩ := prepareProof_ok keys recorded witness'
  have hwith : ∀ x y, proveWith r pk w x y =
      .ok (proofOf pk r.numInstance w.values.toList h.toList x y) := fun x y => by
    rw [proveWith, hprepared]
    rfl
  have hwith' : ∀ x y, proveWith r pk w' x y =
      .ok (proofOf pk r.numInstance w'.values.toList h'.toList x y) := fun x y => by
    rw [proveWith, hprepared']
    rfl
  refine ⟨fun x y => ⟨_, hwith x y, ?_⟩, fun x y σ _ state state' draws => ?_⟩
  · obtain ⟨x', hx, hxunique⟩ := existsUnique_blinding keys.delta_ne_zero
      (t.alpha + ∑ i ∈ range q.u.size, vectorAt q.u i * vectorAt w'.values i)
      (scalarA t q (vectorAt w.values) x)
    obtain ⟨y', hy, hyunique⟩ := existsUnique_blinding keys.delta_ne_zero
      (t.beta + ∑ i ∈ range q.v.size, vectorAt q.v i * vectorAt w'.values i)
      (scalarB t q (vectorAt w.values) y)
    refine ⟨(x', y'), ?_, fun p hp => ?_⟩
    · have hA : scalarA t q (vectorAt w'.values) x' = scalarA t q (vectorAt w.values) x := hx
      have hB : scalarB t q (vectorAt w'.values) y' = scalarB t q (vectorAt w.values) y := hy
      have hC := keys.scalarC_congr recorded.numInstance_le divides divides'
        (fun i hi => witness.eq_of_publicPart witness' same hi) hA hB
      dsimp only
      rw [hwith', proofOf_eq keys divides'.size, proofOf_eq keys divides.size, hA, hB, hC]
    · -- A proof determines its scalars, and the first two determine the blinding scalars.
      change proveWith r pk w' p.1 p.2 = _ at hp
      rw [hwith', proofOf_eq keys divides'.size, proofOf_eq keys divides.size, Except.ok.injEq,
        Proof.mk.injEq] at hp
      exact Prod.ext (hxunique _ (smul_generator_injective hp.1))
        (hyunique _ (smul_generator_injective hp.2.1))
  · rw [hwith, hwith']
    exact ⟨runOn_prove hprepared draws, runOn_prove hprepared' draws⟩

/-! ## Two witnesses -/

namespace Sample

/-- A vector of wires of the circuit, with the marks of the system. -/
def witnessOf (r : R1CS field) (m : Fp field) : Witness field :=
  ⟨wires m, r.numPublic, r.digest, r.modulus⟩

theorem isWitness {r : R1CS field} (h : Compilation circuit field.descriptor 1 calls r)
    {m : Fp field} (hm : m = 0 ∨ m = 7) : r.IsWitness (witnessOf r m) := by
  obtain ⟨size, one, check, -⟩ := solution h hm
  exact ⟨size, one, check, rfl, rfl, rfl⟩

end Sample

/-- In the circuit, the two witnesses for `x = 0` with different values for the open inverse give the
same proofs. -/
theorem proofs_hide_witness_sample :
    ∃ r, Compilation Sample.circuit Sample.field.descriptor 1 Sample.calls r ∧
      ∃ pk : ProvingKey (Logarithm Sample.field) (Logarithm Sample.field),
        generateKeys r Sample.secrets = .ok pk ∧
        r.IsWitness (Sample.witnessOf r 0) ∧ r.IsWitness (Sample.witnessOf r 7) ∧
        (Sample.witnessOf r 0).publicPart = (Sample.witnessOf r 7).publicPart ∧
        ∃ proof, proveWith r pk (Sample.witnessOf r 0) 3 8 = .ok proof ∧
          ∃! p : Fp Sample.field × Fp Sample.field,
            proveWith r pk (Sample.witnessOf r 7) p.1 p.2 = .ok proof := by
  obtain ⟨r, h⟩ := Sample.exists_compilation
  obtain ⟨pk, hkeys⟩ := Sample.exists_keys h
  have hzero := Sample.isWitness h (.inl rfl)
  have hseven := Sample.isWitness h (.inr rfl)
  have hpublic : r.numPublic = 1 := by
    rw [ConstraintSystem.numPublic, h.names.1]
    rfl
  have same : (Sample.witnessOf r 0).publicPart = (Sample.witnessOf r 7).publicPart := by
    rw [Witness.publicPart, Witness.publicPart, Sample.witnessOf, Sample.witnessOf, hpublic]
    rfl
  exact ⟨r, h, pk, hkeys, hzero, hseven, same,
    (proofs_hide_witness h hkeys hzero hseven same).1 3 8⟩

end Groth16
