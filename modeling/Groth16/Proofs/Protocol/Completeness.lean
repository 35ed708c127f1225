import Groth16.Proofs.Protocol.Verifier

/-!
# Honest proofs are accepted

Whoever holds a witness of a compiled system is given a proof by the prover, and the proof is accepted
for the public inputs of the witness, whatever the secrets of the setup and the blinding scalars were.
There is one exception: a proof with a point at infinity is refused as malformed.

* `honestAnswer`: the answer to an honest proof.
* `Generated.verifyWithInputs_eq`: the answer for the inputs of a witness.
* `honest_proofs_verify`: the answers of all entry points to a proof that was made from named inputs.
* `proofOfWires?`: what a run of the prover gives, as a function of the wires and the scalars.
-/

set_option autoImplicit false

namespace Groth16

open ScalarGroup

variable {K : PrimeField} {G₁ G₂ T : Type} [ScalarGroup K G₁] [ScalarGroup K G₂]
  [Pairing K G₁ G₂ T]

/-! ## Answers -/

/-- The answer to an honest proof: it is accepted, unless one of its points is at infinity. -/
def honestAnswer (proof : Proof G₁ G₂) : Except VerificationError Bool :=
  if proof.a = 0 ∨ proof.b = 0 ∨ proof.c = 0 then .error .malformedProof else .ok true

section
variable [prime : Fact K.modulus.Prime] [CommGroup T] [left : LawfulScalarGroup K G₁]
  [right : LawfulScalarGroup K G₂] [lawful : LawfulPairing K G₁ G₂ T] {s : R1CS K}
  {t : ToxicWaste K} {d : Domain K} {q : Qap.Evaluations K} {pk : ProvingKey G₁ G₂} {w : Witness K}

/-- The proof of a witness is answered as an honest proof, for the public part of the witness. -/
theorem Generated.verifyWithInputs_eq [Workers] (keys : Generated s t d q pk)
    (inside : s.numInstance ≤ s.numWires) (witness : s.IsWitness w) {h : Array (Fp K)}
    (divides : Qap.Divides s.toConstraintSystem d (vectorAt w.values) h) (x y : Fp K)
    {proof : Proof G₁ G₂}
    (hproof : proof = proofOf pk s.numInstance w.values.toList h.toList x y) :
    verifyWithInputs (pk.vk.prepare : PreparedKey G₁ G₂ T) proof w.publicPart.values =
      honestAnswer proof := by
  obtain ⟨first, rest, hpoints, hrest, hsum⟩ := keys.exists_instancePoints inside
  have hlength : w.publicPart.values.length = rest.length := by
    rw [witness.length_publicPart inside, hrest]
  have hknown := hsum (vectorAt w.values) w.publicPart.values witness.vectorAt_zero
    fun i hi => witness.listAt_publicPart hi
  have haccepts : (pk.vk.prepare : PreparedKey G₁ G₂ T).accepts proof
      (instanceSum first rest w.publicPart.values) = true := by
    rw [hknown, hproof, proofOf_eq keys divides.size, keys.accepts_iff,
      scalarC_mul_delta keys inside divides, mul_assoc, inv_mul_cancel₀ keys.gamma_ne_zero, mul_one]
    ring
  rw [honestAnswer]
  split
  · next malformed => exact verifyWithInputs_of_malformed hpoints hlength malformed
  · next finite => rw [verifyWithInputs_of_wellFormed hpoints hlength finite, haccepts]

end

/-! ## Named inputs -/

theorem Generated.checkWitness_eq_ok [Fact K.modulus.Prime] {s : R1CS K} {t : ToxicWaste K}
    {d : Domain K} {q : Qap.Evaluations K} {pk : ProvingKey G₁ G₂} {w : Witness K}
    (keys : Generated s t d q pk) (modulus : s.modulus = K.descriptor) (witness : s.IsWitness w) :
    pk.vk.checkWitness w.publicPart = .ok () := by
  refine pk.vk.checkWitness_of_matches (witness.modulus.trans modulus) ?_
  rw [keys.keys]
  exact witness.digest

/-- **Honest proofs are accepted.**  Let a circuit be compiled, keys be generated for it from any
secrets, and a witness be assigned from named inputs.  On every source that answers twice, the prover
gives a proof, from the witness as well as from the inputs; the public part of the witness is the
public witness of the inputs; and verifying with the key, with the prepared key and by name gives one
and the same answer: the proof is accepted, unless one of its points is at infinity, in which case it
is reported to be malformed. -/
theorem honest_proofs_verify [Workers] [Fact K.modulus.Prime] [CommGroup T] [LawfulScalarGroup K G₁]
    [LawfulScalarGroup K G₂] [LawfulPairing K G₁ G₂ T] {c : Circuit K} {modulus : Modulus}
    {session : Nat} {calls : List (Call K)} {r : R1CS K}
    (compilation : Compilation c modulus session calls r) {t : ToxicWaste K}
    {pk : ProvingKey G₁ G₂} (generated : generateKeys r t = .ok pk)
    {secret publics : Assignment K} {w : Witness K} (assigned : r.assign secret publics = .ok w)
    {σ : Type} [RandomSource σ] {state between state' : σ} {b₁ b₂ : Block}
    (first : RandomSource.next state = (.ok b₁, between))
    (second : RandomSource.next between = (.ok b₂, state')) (name : String) :
    ∃ proof : Proof G₁ G₂,
      (prove r pk w).runOn state = (.ok proof, state') ∧
      ((CircuitKeys.ofKey name r pk : CircuitKeys K G₁ G₂ T).prove secret publics).runOn state =
        (.ok (proof, w.publicPart), state') ∧
      r.publicWitness publics = .ok w.publicPart ∧
      verify proof pk.vk w.publicPart = honestAnswer proof ∧
      verifyPrepared pk.vk.prepare proof w.publicPart = honestAnswer proof ∧
      (CircuitKeys.ofKey name r pk : CircuitKeys K G₁ G₂ T).verify proof publics =
        (honestAnswer proof).mapError .verify := by
  obtain ⟨ops, recorded, -⟩ := compilation.exists_recorded
  obtain ⟨d, q, keys⟩ := generateKeys_eq_ok generated
  obtain ⟨witness, hpublic⟩ := recorded.isWitness_of_assign assigned
  obtain ⟨h, hprepared, divides⟩ := prepareProof_ok keys recorded witness
  have hrun := runOn_prove hprepared ⟨b₁, b₂, between, first, second, rfl, rfl⟩
  obtain ⟨proof, hproof⟩ : ∃ proof : Proof G₁ G₂, proof = proofOf pk r.numInstance w.values.toList
      h.toList (Fp.ofBlock K b₁) (Fp.ofBlock K b₂) := ⟨_, rfl⟩
  rw [← hproof] at hrun
  have hanswer := keys.verifyWithInputs_eq recorded.numInstance_le witness divides _ _ hproof
  have hcheck := keys.checkWitness_eq_ok recorded.modulus witness
  have hverify : verifyPrepared pk.vk.prepare proof w.publicPart = honestAnswer proof := by
    rw [verifyPrepared_of_checkWitness hcheck, hanswer]
  refine ⟨proof, hrun, ?_, hpublic, ?_, hverify, ?_⟩
  · have hassign : (Draws.ofOutcome ((r.assign secret publics).mapError PhaseError.assign) :
        Draws σ (Failure PhaseError) (Witness K)).runOn state = (.ok w, state) := by
      rw [Draws.runOn_ofOutcome, assigned]
      rfl
    rw [CircuitKeys.prove]
    change (Draws.ofOutcome ((r.assign secret publics).mapError PhaseError.assign) >>=
      fun w => (Groth16.prove r pk w).mapError PhaseError.prove >>= _).runOn state = _
    rw [Draws.runOn_bind_of_ok hassign, Draws.runOn_bind_of_ok (Draws.runOn_mapError_eq_ok.2 hrun)]
    rfl
  · rw [verify_of_checkWitness hcheck, hanswer]
  · rw [CircuitKeys.verify]
    change ((r.publicWitness publics).mapError PhaseError.assign >>=
      fun w => (verifyPrepared pk.vk.prepare proof w).mapError .verify) = _
    rw [hpublic, ← hverify]
    rfl

/-! ## A proof -/

/-- The proof for a vector of wires, without the checks of the key and the witness. -/
def proofOfWires? [Workers] (s : ConstraintSystem K) (pk : ProvingKey G₁ G₂) (z : Array (Fp K))
    (x y : Fp K) : Option (Proof G₁ G₂) :=
  match Qap.domainFor s with
  | .error _ => none
  | .ok d =>
    match Qap.quotient s d z with
    | .error _ => none
    | .ok h => some (proofOf pk s.numInstance z.toList h.toList x y)

/-- The proof that a run gives. -/
theorem proofOfWires?_of_runOn [Workers] {s : R1CS K} {pk : ProvingKey G₁ G₂} {w : Witness K}
    {h : Array (Fp K)} (prepared : prepareProof s pk w = .ok h) {σ : Type} [RandomSource σ]
    {x y : Fp K} {state state' : σ} (draws : DrawsScalars x y state state') {proof : Proof G₁ G₂}
    (run : (prove s pk w).runOn state = (.ok proof, state')) :
    proofOfWires? s.toConstraintSystem pk w.values x y = some proof := by
  obtain ⟨d, fits, -, hquotient⟩ := prepareProof_eq_ok prepared
  obtain ⟨hproof, -⟩ := Prod.mk.inj ((runOn_prove prepared draws).symm.trans run)
  rw [proofOfWires?, fits.domain]
  dsimp only
  rw [hquotient, ← Except.ok.inj hproof]

namespace Sample

/-- A source that answers twice. -/
def source : Script := ⟨[some [3], some [8]]⟩

/-- The points of the proof for `x = 3` and `y = 8` are finite. -/
theorem finite_of_proofOfWires? {r : R1CS field}
    (h : Compilation circuit field.descriptor 1 calls r)
    {pk : ProvingKey (Logarithm field) (Logarithm field)}
    (generated : generateKeys r secrets = .ok pk)
    {proof : Proof (Logarithm field) (Logarithm field)}
    (hproof : proofOfWires? r.toConstraintSystem pk assignedWires (.ofBlock field (blockOf [3]))
      (.ofBlock field (blockOf [8])) = some proof) : ¬ proof.Malformed := by
  have hfinite : (match circuit.compile field.descriptor 1 with
    | .error _ => true
    | .ok r => match (generateKeys r secrets :
        Outcome SetupError (ProvingKey (Logarithm field) (Logarithm field))) with
      | .error _ => true
      | .ok pk => (proofOfWires? r.toConstraintSystem pk assignedWires
          (.ofBlock field (blockOf [3])) (.ofBlock field (blockOf [8]))).all
            fun proof => ¬ proof.Malformed) = true := by
    decide +kernel
  rw [h.compiled] at hfinite
  dsimp only at hfinite
  rw [generated] at hfinite
  dsimp only at hfinite
  rw [hproof] at hfinite
  exact of_decide_eq_true hfinite

end Sample

/-- The circuit has a proof for `x = 3` and `y = 8` with the blinding scalars three and eight, and it
is accepted. -/
theorem honest_proofs_verify_sample :
    ∃ r, Compilation Sample.circuit Sample.field.descriptor 1 Sample.calls r ∧
      ∃ pk : ProvingKey (Logarithm Sample.field) (Logarithm Sample.field),
        generateKeys r Sample.secrets = .ok pk ∧
        ∃ w, r.assign (Sample.secret 3) (Sample.publics 8) = .ok w ∧
          ∃ proof, (prove r pk w).runOn Sample.source = (.ok proof, ⟨[]⟩) ∧
            verify proof pk.vk w.publicPart = .ok true := by
  obtain ⟨r, h⟩ := Sample.exists_compilation
  obtain ⟨pk, hkeys⟩ := Sample.exists_keys h
  have hw := Sample.assign_eq h
  have hfirst : RandomSource.next Sample.source = (.ok (blockOf [3]), ⟨[some [8]]⟩) := rfl
  have hsecond : RandomSource.next (⟨[some [8]]⟩ : Script) = (.ok (blockOf [8]), ⟨[]⟩) := rfl
  obtain ⟨proof, hrun, -, -, hverify, -, -⟩ :=
    honest_proofs_verify h hkeys hw hfirst hsecond "sample"
  refine ⟨r, h, pk, hkeys, _, hw, proof, hrun, ?_⟩
  obtain ⟨ops, recorded, -⟩ := h.exists_recorded
  obtain ⟨d, q, keys⟩ := generateKeys_eq_ok hkeys
  obtain ⟨witness, -⟩ := recorded.isWitness_of_assign hw
  obtain ⟨quotient, hprepared, -⟩ := prepareProof_ok keys recorded witness
  have hproof := proofOfWires?_of_runOn hprepared ⟨_, _, _, hfirst, hsecond, rfl, rfl⟩ hrun
  have finite : ¬ (proof.a = 0 ∨ proof.b = 0 ∨ proof.c = 0) :=
    Sample.finite_of_proofOfWires? h hkeys hproof
  rw [hverify, honestAnswer, if_neg finite]

end Groth16
