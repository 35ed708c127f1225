import Groth16.Proofs.Protocol.Completeness

/-!
# Provers and verifiers on keys from anywhere

A key may come from a file, and then its parts may have any sizes and hold any points.  A sum of
multiples ignores the points and scalars that have no partner, so a check of sizes that is missing
would not be noticed: the proof, or the answer, would be wrong.  This file shows that no check is
missing, and that all of them come before the source of randomness is asked.

* `prepareProof_cases`: all that comes before the draws ends with a reported error, or with the
  quotient of wires that satisfy the system.
* `runOn_prove_cases`: how a run of the prover can end.
* `pairedMsm`, `pairedProof`: a sum, and a proof, in which no point and no scalar may be left over.
* `ProvingKey.Paired`: the sums of a proof have as many points as scalars; `pairedProof_eq_ok_iff`
  says that this is what it takes.
* `verifyByPosition`: the verifier with the points of the inputs read by position.
* `prove_verify_safe`: what all this means for the prover and the verifier.
-/

set_option autoImplicit false

namespace Groth16

variable {K : PrimeField} {G₁ G₂ T : Type}

/-! ## Before the draws -/

section
variable [prime : Fact K.modulus.Prime] {s : R1CS K} {session : Nat} {known : List Wire}
  {ops : List (Operation K)}

/-- **All that comes before the draws** ends with a reported error, or with the quotient of wires
that satisfy the system, for a key that fits. -/
theorem prepareProof_cases (recorded : s.Recorded session known ops) (pk : ProvingKey G₁ G₂)
    (w : Witness K) :
    (∃ e, prepareProof s pk w = Outcome.report e) ∨
      ∃ d h, prepareProof s pk w = .ok h ∧ pk.Fits s w d ∧ s.Satisfies (vectorAt w.values) ∧
        Qap.Divides s.toConstraintSystem d (vectorAt w.values) h := by
  rw [prepareProof]
  cases hfits : pk.fits s w with
  | error e =>
    cases e with
    | reported e => exact .inl ⟨e, rfl⟩
    | breach => exact absurd hfits (ProvingKey.fits_ne_breach pk w recorded.numInstance_le)
  | ok d =>
    obtain ⟨-, -, fits⟩ := ProvingKey.fits_eq_ok_iff.1 hfits
    have below : ∀ c ∈ s.constraints.toList, c.Below w.values.size := by
      rw [fits.values]
      exact recorded.records.below
    by_cases satisfies : s.Satisfies (vectorAt w.values)
    · have built := Domain.ofSize_valid fits.domain
      obtain ⟨h, hquotient, divides⟩ := Qap.quotient_ok built.1 built.2 below
        (by rw [fits.values]; exact recorded.numInstance_le) satisfies
      refine .inr ⟨d, h, ?_, fits, satisfies, divides⟩
      rw [(ConstraintSystem.check_eq_ok_iff below).2 satisfies]
      change Outcome.mapError ProvingError.domain (Qap.quotient s.toConstraintSystem d w.values) = _
      rw [hquotient]
      rfl
    · obtain ⟨u, hu⟩ := ConstraintSystem.check_eq_report below satisfies
      rw [hu]
      exact .inl ⟨.unsatisfied u, rfl⟩

end

/-! ## Runs of the prover -/

section
variable [ScalarGroup K G₁] [ScalarGroup K G₂] {σ : Type} [RandomSource σ]

/-- **How a run of the prover can end**: with the error of a check, and the source as it was; with a
failure of the source; or with a proof, after two draws. -/
theorem runOn_prove_cases [Workers] (s : R1CS K) (pk : ProvingKey G₁ G₂) (w : Witness K)
    (state : σ) :
    (∃ e, prepareProof s pk w = .error e ∧ (prove s pk w).runOn state = (.error e, state)) ∨
      (∃ cause state', (prove s pk w).runOn state =
        (.error (.reported (.randomness cause)), state')) ∨
      ∃ h x y state', prepareProof s pk w = .ok h ∧ DrawsScalars x y state state' ∧
        (prove s pk w).runOn state =
          (.ok (proofOf pk s.numInstance w.values.toList h.toList x y), state') := by
  cases hprepared : prepareProof s pk w with
  | error e =>
    refine .inl ⟨e, rfl, ?_⟩
    rw [prove, hprepared]
    rfl
  | ok h =>
    rcases hfirst : RandomSource.next state with ⟨cause | b₁, between⟩
    · refine .inr (.inl ⟨cause, between, ?_⟩)
      rw [prove, hprepared]
      exact Draws.runOn_bind_of_error (Draws.runOn_sample_of_error hfirst)
    · rcases hsecond : RandomSource.next between with ⟨cause | b₂, state'⟩
      · refine .inr (.inl ⟨cause, state', ?_⟩)
        rw [prove, hprepared]
        dsimp only
        rw [Draws.runOn_bind_of_ok (Draws.runOn_sample hfirst)]
        exact Draws.runOn_bind_of_error (Draws.runOn_sample_of_error hsecond)
      · have draws : DrawsScalars (Fp.ofBlock K b₁) (Fp.ofBlock K b₂) state state' :=
          ⟨b₁, b₂, between, hfirst, hsecond, rfl, rfl⟩
        exact .inr (.inr ⟨h, _, _, state', rfl, draws, runOn_prove hprepared draws⟩)

end

/-! ## Sums without a remainder -/

section
variable {ε : Type}

/-- A sum of multiples in which a point or a scalar that is left over is a breach. -/
def pairedMsm {G : Type} [ScalarGroup K G] (workers : Nat) (bases : List G)
    (scalars : List (Fp K)) : Outcome ε G :=
  if bases.length = scalars.length then .ok (msm workers bases scalars) else Outcome.breach

theorem pairedMsm_of_length_eq {G : Type} [ScalarGroup K G] {workers : Nat} {bases : List G}
    {scalars : List (Fp K)} (h : bases.length = scalars.length) :
    (pairedMsm workers bases scalars : Outcome ε G) = .ok (msm workers bases scalars) := if_pos h

theorem pairedMsm_eq_ok_iff {G : Type} [ScalarGroup K G] {workers : Nat} {bases : List G}
    {scalars : List (Fp K)} {p : G} : (pairedMsm workers bases scalars : Outcome ε G) = .ok p ↔
      bases.length = scalars.length ∧ msm workers bases scalars = p := by
  rw [pairedMsm]
  split
  · next h => rw [and_iff_right h, Except.ok.injEq]
  · next h =>
    refine iff_of_false (fun hp => ?_) fun hp => h hp.1
    cases hp

/-- The wires from number `n` on. That there are fewer is a breach. -/
def wiresFrom (n : Nat) (z : List (Fp K)) : Outcome ε (List (Fp K)) :=
  if n ≤ z.length then .ok (z.drop n) else Outcome.breach

theorem wiresFrom_eq_ok_iff {n : Nat} {z y : List (Fp K)} :
    (wiresFrom n z : Outcome ε (List (Fp K))) = .ok y ↔ n ≤ z.length ∧ z.drop n = y := by
  rw [wiresFrom]
  split
  · next h => rw [and_iff_right h, Except.ok.injEq]
  · next h =>
    refine iff_of_false (fun hy => ?_) fun hy => h hy.1
    cases hy

end

/-- Every point in the sums of a proof has a scalar, and every scalar a point: over all wires, over
the private ones of at least `n` wires, and over the quotient. -/
structure ProvingKey.Paired (pk : ProvingKey G₁ G₂) (n : Nat) (z h : List (Fp K)) : Prop where
  /-- The first factors. -/
  aPoints : pk.aPoints.length = z.length
  /-- The second factors in the first group. -/
  bPoints : pk.bPoints.length = z.length
  /-- The second factors in the second group. -/
  bPoints₂ : pk.bPoints₂.length = z.length
  /-- The instance wires can be left out. -/
  inside : n ≤ z.length
  /-- The private wires. -/
  privatePoints : pk.privatePoints.length = (z.drop n).length
  /-- The quotient. -/
  quotientPoints : pk.quotientPoints.length = h.length

theorem ProvingKey.Fits.paired {pk : ProvingKey G₁ G₂} {s : R1CS K} {w : Witness K} {d : Domain K}
    (fits : pk.Fits s w d) {h : Array (Fp K)} (size : h.size = Qap.quotientLength d.size) :
    pk.Paired s.numInstance w.values.toList h.toList := by
  have hvalues : w.values.toList.length = s.numWires := fits.values
  constructor
  · rw [hvalues, fits.aPoints]
  · rw [hvalues, fits.bPoints]
  · rw [hvalues, fits.bPoints₂]
  · rw [hvalues]
    exact fits.inside
  · rw [List.length_drop, hvalues, fits.privatePoints]
  · rw [Array.length_toList, size, fits.quotientPoints]

section
variable [ScalarGroup K G₁] [ScalarGroup K G₂]

/-- The proof for a vector of wires, its quotient and the blinding scalars, in which nothing may be
left over in a sum. -/
def pairedProof [Workers] (pk : ProvingKey G₁ G₂) (numInstance : Nat) (z h : List (Fp K))
    (r s : Fp K) : Outcome ProvingError (Proof G₁ G₂) := do
  let firsts : G₁ ← pairedMsm Workers.proving pk.aPoints z
  let seconds₂ : G₂ ← pairedMsm Workers.proving pk.bPoints₂ z
  let seconds : G₁ ← pairedMsm Workers.proving pk.bPoints z
  let privateWires ← wiresFrom numInstance z
  let hidden : G₁ ← pairedMsm Workers.proving pk.privatePoints privateWires
  let quotient : G₁ ← pairedMsm Workers.proving pk.quotientPoints h
  let a := pk.vk.alpha + firsts + r • pk.delta
  let b := pk.beta + seconds + s • pk.delta
  return ⟨a, pk.vk.beta + seconds₂ + s • pk.vk.delta,
    hidden + quotient + s • a + r • b + -((r * s) • pk.delta)⟩

/-- **Nothing is left over exactly where all is paired**, and then the proof is the proof. -/
theorem pairedProof_eq_ok_iff [Workers] {pk : ProvingKey G₁ G₂} {n : Nat} {z h : List (Fp K)}
    {x y : Fp K} {proof : Proof G₁ G₂} :
    pairedProof pk n z h x y = .ok proof ↔ pk.Paired n z h ∧ proof = proofOf pk n z h x y := by
  rw [pairedProof]
  simp only [Outcome.bind_eq_ok, pairedMsm_eq_ok_iff, wiresFrom_eq_ok_iff]
  constructor
  · rintro ⟨-, ⟨ha, rfl⟩, -, ⟨hb₂, rfl⟩, -, ⟨hb, rfl⟩, -, ⟨inside, rfl⟩, -, ⟨hprivate, rfl⟩, -,
      ⟨hquotient, rfl⟩, hproof⟩
    exact ⟨⟨ha, hb, hb₂, inside, hprivate, hquotient⟩, (Except.ok.inj hproof).symm⟩
  · rintro ⟨paired, rfl⟩
    exact ⟨_, ⟨paired.aPoints, rfl⟩, _, ⟨paired.bPoints₂, rfl⟩, _, ⟨paired.bPoints, rfl⟩, _,
      ⟨paired.inside, rfl⟩, _, ⟨paired.privatePoints, rfl⟩, _, ⟨paired.quotientPoints, rfl⟩, rfl⟩

end

/-! ## The verifier -/

section
variable [ScalarGroup K G₁] [ScalarGroup K G₂] [Pairing K G₁ G₂ T]

/-- Verifies a proof for inputs in wire order, with the point of the one-wire read from position
zero and those of the inputs from position one on.  Where the list does not reach so far, reading it
is a breach, and so is a point or an input that is left over. -/
def verifyByPosition [Workers] (pvk : PreparedKey G₁ G₂ T) (proof : Proof G₁ G₂)
    (inputs : List (Fp K)) : Outcome VerificationError Bool := do
  if inputs.length ≠ pvk.vk.numPublic ∨ pvk.vk.instancePoints.isEmpty then
    Outcome.report (.inputLength pvk.vk.numPublic inputs.length)
  else if proof.a = 0 ∨ proof.b = 0 ∨ proof.c = 0 then Outcome.report .malformedProof
  else do
    let first ← Outcome.require pvk.vk.instancePoints[0]?
    let rest ← Outcome.require pvk.vk.instancePoints.tail?
    let known : G₁ ← pairedMsm Workers.verifying rest inputs
    return pvk.accepts proof (first + known)

/-- The checks of the verifier leave no position out of reach. -/
theorem verifyByPosition_eq [Workers] (pvk : PreparedKey G₁ G₂ T) (proof : Proof G₁ G₂)
    (inputs : List (Fp K)) :
    verifyByPosition pvk proof inputs = Outcome.ofExcept (verifyWithInputs pvk proof inputs) := by
  rw [verifyByPosition, verifyWithInputs]
  cases hpoints : pvk.vk.instancePoints with
  | nil => rw [if_pos (.inr rfl)]; rfl
  | cons first rest =>
    have hnumPublic : pvk.vk.numPublic = rest.length := by
      rw [VerifyingKey.numPublic, hpoints]
      rfl
    rw [hnumPublic]
    by_cases hlength : inputs.length = rest.length
    · rw [if_neg (by simp [hlength])]
      dsimp only
      rw [if_neg (not_not.2 hlength)]
      split
      · rfl
      · change (pairedMsm Workers.verifying rest inputs >>= _) = _
        rw [pairedMsm_of_length_eq hlength.symm]
        rfl
    · rw [if_pos (.inl hlength)]
      dsimp only
      rw [if_pos hlength]
      rfl

/-- An answer is that of the pairing, for as many points as there are inputs. -/
theorem verifyWithInputs_eq_ok [Workers] {pvk : PreparedKey G₁ G₂ T} {proof : Proof G₁ G₂}
    {inputs : List (Fp K)} {b : Bool} (h : verifyWithInputs pvk proof inputs = .ok b) :
    ∃ first rest, pvk.vk.instancePoints = first :: rest ∧ rest.length = inputs.length ∧
      b = pvk.accepts proof (instanceSum first rest inputs) := by
  rcases verifyWithInputs_cases pvk proof inputs with ⟨-, hrun⟩ | ⟨-, -, hrun⟩ |
    ⟨first, rest, hpoints, hlength, -, -, hrun⟩
  · cases hrun.symm.trans h
  · cases hrun.symm.trans h
  · exact ⟨first, rest, hpoints, hlength.symm, Except.ok.inj (h.symm.trans hrun)⟩

/-- Verifying for a public witness ends as verifying for its inputs does, if it ends with an
answer. -/
theorem verifyWithInputs_of_verifyPrepared [Workers] {pvk : PreparedKey G₁ G₂ T}
    {proof : Proof G₁ G₂} {w : PublicWitness K} {b : Bool} (h : verifyPrepared pvk proof w = .ok b) :
    verifyWithInputs pvk proof w.values = .ok b := by
  obtain ⟨⟨⟩, -, h⟩ := Outcome.bind_eq_ok.1 h
  exact h

/-- **The prover and the verifier are safe on every key.**  Let a system come from compiling a
circuit, and let keys, witnesses, proofs and inputs be any values of their types.

The system has as many wires as the verifier knows, so that the number of the others can be said.  A
run of the prover ends in one of three ways, and never in a breach: with a reported error, and the
source as it was; with a failure of the source; or with a proof, after exactly two draws.  A proof is
given only if the key and the witness fit the system and the witness satisfies every row.  Each of its
sums has as many points as scalars, so it is the proof in which nothing may be left over.

The verifier reads no point that is not there, and leaves none over.  An answer, for inputs or for a
public witness, is that of the pairing, and its sum has as many points as scalars. -/
theorem prove_verify_safe [Workers] [Fact K.modulus.Prime] {c : Circuit K} {modulus : Modulus}
    {session : Nat} {calls : List (Call K)} {r : R1CS K}
    (compilation : Compilation c modulus session calls r) :
    r.numInstance ≤ r.numWires ∧
    (∀ (pk : ProvingKey G₁ G₂) (w : Witness K) {σ : Type} [RandomSource σ] (state : σ),
      (∃ e, (prove r pk w).runOn state = (Outcome.report e, state)) ∨
      (∃ cause state', (prove r pk w).runOn state =
        (Outcome.report (.randomness cause), state')) ∨
      ∃ (d : Domain K) (h : Array (Fp K)) (x y : Fp K) (state' : σ),
        (prove r pk w).runOn state =
          (.ok (proofOf pk r.numInstance w.values.toList h.toList x y), state') ∧
        prepareProof r pk w = .ok h ∧ DrawsScalars x y state state' ∧ pk.Fits r w d ∧
        r.Satisfies (vectorAt w.values) ∧ pk.Paired r.numInstance w.values.toList h.toList ∧
        pairedProof pk r.numInstance w.values.toList h.toList x y =
          .ok (proofOf pk r.numInstance w.values.toList h.toList x y)) ∧
    (∀ (pvk : PreparedKey G₁ G₂ T) (proof : Proof G₁ G₂) (inputs : List (Fp K)),
      verifyByPosition pvk proof inputs = Outcome.ofExcept (verifyWithInputs pvk proof inputs) ∧
      ∀ b, verifyWithInputs pvk proof inputs = .ok b →
        ∃ first rest, pvk.vk.instancePoints = first :: rest ∧ rest.length = inputs.length ∧
          b = pvk.accepts proof (instanceSum first rest inputs)) ∧
    ∀ (vk : VerifyingKey G₁ G₂) (pvk : PreparedKey G₁ G₂ T) (proof : Proof G₁ G₂)
      (w : PublicWitness K) (b : Bool),
      (verify proof vk w = .ok b →
        ∃ first rest, vk.instancePoints = first :: rest ∧ rest.length = w.values.length ∧
          b = (vk.prepare : PreparedKey G₁ G₂ T).accepts proof (instanceSum first rest w.values)) ∧
      (verifyPrepared pvk proof w = .ok b →
        ∃ first rest, pvk.vk.instancePoints = first :: rest ∧ rest.length = w.values.length ∧
          b = pvk.accepts proof (instanceSum first rest w.values)) := by
  obtain ⟨ops, recorded, -⟩ := compilation.exists_recorded
  refine ⟨recorded.numInstance_le, fun pk w σ _ state => ?_, fun pvk proof inputs => ?_,
    fun vk pvk proof w b => ⟨?_, ?_⟩⟩
  · rcases runOn_prove_cases r pk w state with ⟨e, hprepared, hrun⟩ | hfailed |
      ⟨h, x, y, state', hprepared, draws, hrun⟩
    · rcases prepareProof_cases recorded pk w with ⟨e', he'⟩ | ⟨d, h, hok, -⟩
      · rw [hprepared] at he'
        obtain rfl : e = .reported e' := Except.error.inj he'
        exact .inl ⟨e', hrun⟩
      · rw [hprepared] at hok
        cases hok
    · exact .inr (.inl hfailed)
    · rcases prepareProof_cases recorded pk w with ⟨e', he'⟩ |
        ⟨d, h', hok, fits, satisfies, divides⟩
      · rw [hprepared] at he'
        cases he'
      · obtain rfl : h = h' := Except.ok.inj (hprepared.symm.trans hok)
        have paired := fits.paired divides.size
        exact .inr (.inr ⟨d, h, x, y, state', hrun, hok, draws, fits, satisfies, paired,
          pairedProof_eq_ok_iff.2 ⟨paired, rfl⟩⟩)
  · exact ⟨verifyByPosition_eq pvk proof inputs, fun b hb => verifyWithInputs_eq_ok hb⟩
  · intro h
    have hprepared : verifyPrepared (vk.prepare : PreparedKey G₁ G₂ T) proof w = .ok b := h
    exact verifyWithInputs_eq_ok (verifyWithInputs_of_verifyPrepared hprepared)
  · intro h
    exact verifyWithInputs_eq_ok (verifyWithInputs_of_verifyPrepared h)

end

/-! ## A run -/

/-- For `x = 3` and `y = 8` the prover gives a proof, and no point in its sums is left over. -/
theorem prove_verify_safe_sample :
    ∃ r, Compilation Sample.circuit Sample.field.descriptor 1 Sample.calls r ∧
      ∃ (pk : ProvingKey (Logarithm Sample.field) (Logarithm Sample.field))
        (w : Witness Sample.field) (h : Array (Fp Sample.field)) (x y : Fp Sample.field)
        (left : Script),
        (prove r pk w).runOn Sample.source =
          (.ok (proofOf pk r.numInstance w.values.toList h.toList x y), left) ∧
        pairedProof pk r.numInstance w.values.toList h.toList x y =
          .ok (proofOf pk r.numInstance w.values.toList h.toList x y) := by
  obtain ⟨r, hr⟩ := Sample.exists_compilation
  obtain ⟨pk, hkeys⟩ := Sample.exists_keys hr
  have hw := Sample.assign_eq hr
  obtain ⟨ops, recorded, -⟩ := hr.exists_recorded
  obtain ⟨d, q, keys⟩ := generateKeys_eq_ok hkeys
  obtain ⟨h, hprepared, -⟩ := prepareProof_ok keys recorded (recorded.isWitness_of_assign hw).1
  have draws : DrawsScalars (Fp.ofBlock Sample.field (blockOf [3])) (Fp.ofBlock _ (blockOf [8]))
      Sample.source ⟨[]⟩ := ⟨_, _, _, rfl, rfl, rfl, rfl⟩
  have hrun := runOn_prove hprepared draws
  rcases (prove_verify_safe hr).2.1 pk _ Sample.source with ⟨e, he⟩ | ⟨cause, left, hcause⟩ |
    ⟨d, h, x, y, left, hok, -, -, -, -, -, hpaired⟩
  · rw [hrun] at he
    cases he
  · rw [hrun] at hcause
    cases hcause
  · exact ⟨r, hr, pk, _, h, x, y, left, hok, hpaired⟩

end Groth16
