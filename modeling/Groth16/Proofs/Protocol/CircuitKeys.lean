import Groth16.Proofs.Circuit.Tracing
import Groth16.Proofs.Protocol.Safety
import Groth16.Proofs.Statement.Publics

/-!
# Keys that come from a setup

A circuit with its keys is made by compiling the circuit and running a setup for it.  Whatever is
proved with such keys is accepted by them, for the statement that the proof was given with, as it is
read back from its texts.

* `CircuitKeys.FromSetup`: what a setup makes.
* `CircuitKeys.runOn_generate_eq_ok`: a setup that succeeds makes it.
* `CircuitKeys.FromSetup.verify_statement`: the answer to a proof and its statement.
-/

set_option autoImplicit false

namespace Groth16

variable {K : PrimeField} {G₁ G₂ T : Type}

section
variable [ScalarGroup K G₁] [ScalarGroup K G₂] {σ : Type} [RandomSource σ]

/-- The key of a setup is generated from some secrets. -/
theorem runOn_setup_eq_ok {s : R1CS K} {pk : ProvingKey G₁ G₂} {state state' : σ}
    (h : (setup s).runOn state = (.ok pk, state')) : ∃ t, generateKeys s t = .ok pk := by
  rw [setup] at h
  split at h
  · cases h
  · obtain ⟨t, between, -, h⟩ := Draws.runOn_bind_eq_ok.1 h
    split at h
    · next hkeys =>
      cases h
      exact ⟨t, hkeys⟩
    · cases h

end

namespace CircuitKeys

section
variable [ScalarGroup K G₁] [ScalarGroup K G₂] [Pairing K G₁ G₂ T]

/-- The circuit was compiled, and the keys are those of a setup for the system. -/
structure FromSetup (c : Circuit K) (session : Nat) (keys : CircuitKeys K G₁ G₂ T) : Prop where
  /-- The system is what the circuit is compiled to. -/
  compiled : CircuitKeys.compile c session = .ok keys.r1cs
  /-- The key is marked for the system. -/
  digest : keys.pk.vk.digest = keys.r1cs.digest
  /-- The prepared key is that of the verifying key. -/
  prepared : keys.pvk = keys.pk.vk.prepare
  /-- The key is generated for the system from some secrets. -/
  generated : ∃ t, generateKeys keys.r1cs t = .ok keys.pk

/-- **A setup makes the keys of the circuit**, under the name that it was asked for. -/
theorem runOn_generate_eq_ok [Fact K.modulus.Prime] {σ : Type} [RandomSource σ] {name : String}
    {c : Circuit K} {session : Nat} {keys : CircuitKeys K G₁ G₂ T} {state state' : σ}
    (h : (generate name c session).runOn state = (.ok keys, state')) :
    keys.name = name ∧ keys.FromSetup c session := by
  obtain ⟨r, between, hcompile, h⟩ := Draws.runOn_bind_eq_ok.1 h
  obtain ⟨pk, last, hsetup, h⟩ := Draws.runOn_bind_eq_ok.1 h
  obtain ⟨t, ht⟩ := runOn_setup_eq_ok (Draws.runOn_mapError_eq_ok.1 hsetup)
  obtain ⟨hkeys, -⟩ := Prod.mk.inj h
  obtain rfl : ofKey name r pk = keys := Except.ok.inj hkeys
  obtain ⟨hcompile, -⟩ := Prod.mk.inj hcompile
  obtain ⟨d, q, keys⟩ := generateKeys_eq_ok ht
  refine ⟨rfl, hcompile, ?_, rfl, t, ht⟩
  rw [ofKey, keys.keys]
  rfl

end

section
variable [Fact K.modulus.Prime] [ScalarGroup K G₁] [ScalarGroup K G₂] [Pairing K G₁ G₂ T]
  {c : Circuit K} {session : Nat} {keys : CircuitKeys K G₁ G₂ T}

/-- The system is recorded by the operations of the circuit, its public inputs have different names,
and the key is generated for it. -/
theorem FromSetup.exists_generated (fromSetup : keys.FromSetup c session)
    (traceable : c.Traceable) : ∃ ops t d q, keys.r1cs.publicNames.Nodup ∧
      keys.r1cs.Recorded session (Compilation.known c.schema session) ops ∧
      Generated keys.r1cs t d q keys.pk := by
  obtain ⟨calls, compilation⟩ :=
    traceable.exists_compilation (Outcome.mapError_eq_ok.1 fromSetup.compiled)
  obtain ⟨ops, recorded, -⟩ := compilation.exists_recorded
  obtain ⟨t, ht⟩ := fromSetup.generated
  obtain ⟨d, q, generated⟩ := generateKeys_eq_ok ht
  refine ⟨ops, t, d, q, ?_, recorded, generated⟩
  rw [compilation.names.1]
  exact (List.nodup_append.1 compilation.valid.nodup_names).1

/-- Inputs that are assigned have a proof, on a source that answers twice. -/
theorem FromSetup.runOn_prove_ok [Workers] (fromSetup : keys.FromSetup c session)
    (traceable : c.Traceable) {secret publics : Assignment K} {z : Witness K}
    (assigned : keys.r1cs.assign secret publics = .ok z) {σ : Type} [RandomSource σ] {x y : Fp K}
    {state state' : σ} (draws : DrawsScalars x y state state') :
    ∃ proof, (keys.prove secret publics).runOn state = (.ok (proof, z.publicPart), state') ∧
      proofOfWires? keys.r1cs.toConstraintSystem keys.pk z.values x y = some proof := by
  obtain ⟨ops, t, d, q, -, recorded, generated⟩ := fromSetup.exists_generated traceable
  obtain ⟨h, hprepared, -⟩ :=
    prepareProof_ok generated recorded (recorded.isWitness_of_assign assigned).1
  have hrun := runOn_prove hprepared draws
  refine ⟨proofOf keys.pk keys.r1cs.numInstance z.values.toList h.toList x y,
    Draws.runOn_bind_eq_ok.2 ⟨z, state, ?_, ?_⟩, proofOfWires?_of_runOn hprepared draws hrun⟩
  · rw [Draws.runOn_ofOutcome, assigned]
    rfl
  · rw [Draws.runOn_bind_of_ok (Draws.runOn_mapError_eq_ok.2 hrun)]
    rfl

variable [CommGroup T] [LawfulScalarGroup K G₁] [LawfulScalarGroup K G₂] [LawfulPairing K G₁ G₂ T]

/-- What is proved with the keys is the public part of a witness, and is accepted for it. -/
theorem FromSetup.runOn_prove_eq_ok [Workers] (fromSetup : keys.FromSetup c session)
    (traceable : c.Traceable) {secret publics : Assignment K} {σ : Type} [RandomSource σ]
    {state state' : σ} {proof : Proof G₁ G₂} {w : PublicWitness K}
    (h : (keys.prove secret publics).runOn state = (.ok (proof, w), state')) :
    ∃ z, keys.r1cs.IsWitness z ∧ w = z.publicPart ∧
      verifyPrepared keys.pvk proof w = honestAnswer proof := by
  obtain ⟨ops, t, d, q, -, recorded, generated⟩ := fromSetup.exists_generated traceable
  obtain ⟨z, between, hassign, h⟩ := Draws.runOn_bind_eq_ok.1 h
  obtain ⟨proof', last, hprove, h⟩ := Draws.runOn_bind_eq_ok.1 h
  obtain ⟨hpair, -⟩ := Prod.mk.inj h
  obtain ⟨rfl, rfl⟩ := Prod.mk.inj (Except.ok.inj hpair)
  obtain ⟨hassign, -⟩ := Prod.mk.inj hassign
  obtain ⟨witness, -⟩ := recorded.isWitness_of_assign (Outcome.mapError_eq_ok.1 hassign)
  refine ⟨z, witness, rfl, ?_⟩
  have hrun := Draws.runOn_mapError_eq_ok.1 hprove
  rcases runOn_prove_cases keys.r1cs keys.pk z between with ⟨e, -, hrun'⟩ | ⟨cause, left, hrun'⟩ |
    ⟨h, x, y, left, hprepared, -, hrun'⟩
  · rw [hrun] at hrun'
    cases hrun'
  · rw [hrun] at hrun'
    cases hrun'
  · obtain ⟨h', hprepared', divides⟩ := prepareProof_ok generated recorded witness
    obtain rfl : h = h' := Except.ok.inj (hprepared.symm.trans hprepared')
    obtain ⟨hproof, -⟩ := Prod.mk.inj (hrun.symm.trans hrun')
    have hcheck := generated.checkWitness_eq_ok recorded.modulus witness
    rw [fromSetup.prepared, verifyPrepared_of_checkWitness hcheck]
    exact generated.verifyWithInputs_eq recorded.numInstance_le witness divides x y
      (Except.ok.inj hproof)

/-- **A proof is accepted for its statement**, as it is read back from its texts, unless one of its
points is at infinity. -/
theorem FromSetup.verify_statement [Workers] (fromSetup : keys.FromSetup c session)
    (traceable : c.Traceable) {secret publics : Assignment K} {σ : Type} [RandomSource σ]
    {state state' : σ} {proof : Proof G₁ G₂} {w : PublicWitness K}
    (h : (keys.prove secret publics).runOn state = (.ok (proof, w), state')) (circuit : String) :
    ∃ read, Assignment.ofLiterals (Statement.ofWitness circuit keys.r1cs w).publics.entries =
        .ok read ∧ keys.verify proof read = (honestAnswer proof).mapError .verify := by
  obtain ⟨ops, t, d, q, distinct, recorded, -⟩ := fromSetup.exists_generated traceable
  obtain ⟨z, witness, rfl, hanswer⟩ := fromSetup.runOn_prove_eq_ok traceable h
  obtain ⟨read, hread, hpublic⟩ := Statement.publicWitness_ofWitness recorded.modulus distinct
    (witness.length_publicPart recorded.numInstance_le) witness.digest witness.modulus circuit
  refine ⟨read, hread, ?_⟩
  rw [CircuitKeys.verify, hpublic, ← hanswer]
  rfl

end

end CircuitKeys

end Groth16
