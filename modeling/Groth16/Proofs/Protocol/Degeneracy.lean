import Groth16.Proofs.Domain.Construction
import Groth16.Proofs.Protocol.Secrets
import Groth16.Proofs.Protocol.Setup

/-!
# A setup gives no degenerate keys

A setup draws its secrets before it looks at the size of the system, and at `τ` last.  Its source
may answer with anything.  This file lists how a setup can end, in the order in which it gets there,
and with how many requests; and shows that no point of the keys that depends on the secrets alone is
at infinity.

* `ProvingKey.Nondegenerate`: the points that must not be at infinity.
* `SetupEnds`: how a setup can end.
* `runOn_setupPair_iff`: a setup ends in one of these ways, and is given each of them by its source.
* `setup_never_degenerate`: when there are keys, and what is known of them.
-/

set_option autoImplicit false

namespace Groth16

open RandomSource (after)

variable {K : PrimeField} {G₁ G₂ : Type} [ScalarGroup K G₁] [ScalarGroup K G₂]

/-! ## Keys of given secrets -/

/-- No point of the key that depends on the secrets alone is at infinity. -/
structure ProvingKey.Nondegenerate (pk : ProvingKey G₁ G₂) : Prop where
  /-- `[α]₁` is not. -/
  alpha : pk.vk.alpha ≠ 0
  /-- `[β]₂` is not. -/
  beta₂ : pk.vk.beta ≠ 0
  /-- `[γ]₂` is not. -/
  gamma : pk.vk.gamma ≠ 0
  /-- `[δ]₂` is not. -/
  delta₂ : pk.vk.delta ≠ 0
  /-- `[β]₁` is not. -/
  beta₁ : pk.beta ≠ 0
  /-- `[δ]₁` is not. -/
  delta₁ : pk.delta ≠ 0
  /-- None of the points for the coefficients of a quotient is. -/
  quotientPoints : ∀ p ∈ pk.quotientPoints, p ≠ 0

section
variable [prime : Fact K.modulus.Prime] {s : R1CS K} {t : ToxicWaste K} {d : Domain K}

open ScalarGroup (smul_generator_eq_zero_iff)

/-- **Generated keys are not degenerate.** -/
theorem Generated.nondegenerate [LawfulScalarGroup K G₁] [LawfulScalarGroup K G₂]
    {q : Qap.Evaluations K} {pk : ProvingKey G₁ G₂} (keys : Generated s t d q pk) :
    pk.Nondegenerate := by
  obtain ⟨htau, halpha, hbeta⟩ := keys.secrets_ne_zero
  have hvanishing : q.vanishing ≠ 0 := by
    rw [keys.evaluated.vanishing]
    exact sub_ne_zero.2 keys.evaluated.outside
  rw [keys.keys]
  refine ⟨smul_generator_eq_zero_iff.not.2 halpha, smul_generator_eq_zero_iff.not.2 hbeta,
    smul_generator_eq_zero_iff.not.2 keys.gamma_ne_zero,
    smul_generator_eq_zero_iff.not.2 keys.delta_ne_zero, smul_generator_eq_zero_iff.not.2 hbeta,
    smul_generator_eq_zero_iff.not.2 keys.delta_ne_zero, fun p hp => ?_⟩
  obtain ⟨x, hx, rfl⟩ := List.mem_map.1 hp
  obtain ⟨i, hi⟩ := List.mem_iff_getElem?.1 hx
  have hlt : i < Qap.quotientLength d.size := by
    have := (List.getElem?_eq_some_iff.1 hi).1
    rwa [length_powers] at this
  rw [getElem?_powers _ _ hlt, Option.some.injEq] at hi
  rw [ne_eq, smul_generator_eq_zero_iff, ← hi]
  exact mul_ne_zero (mul_ne_zero hvanishing (inv_ne_zero keys.delta_ne_zero)) (pow_ne_zero i htau)

/-- Where no secret is zero, the domain is looked at, then `τ`, and then there are keys. -/
theorem generateKeys_of_ne_zero (secrets : ∀ a ∈ t.toList, a ≠ 0) :
    (generateKeys s t : Outcome SetupError (ProvingKey G₁ G₂)) =
      (Outcome.ofExcept (Qap.domainFor s.toConstraintSystem)).mapError SetupError.domain >>=
        fun d => if t.tau ^ d.size = 1 then Outcome.report (.degenerate .tauOnDomain) else
          (Qap.evaluateAt s.toConstraintSystem d t.tau).mapError SetupError.domain >>=
            fun q => .ok (keysOf s t t.gamma⁻¹ t.delta⁻¹ d q) := by
  simp only [ToxicWaste.toList, List.forall_mem_cons] at secrets
  obtain ⟨htau, halpha, hbeta, hgamma, hdelta, -⟩ := secrets
  have hcontains : ∀ d : Domain K, (t.tau = 0 ∨ d.contains t.tau = true) ↔ t.tau ^ d.size = 1 := by
    intro d
    rw [or_iff_right htau, Domain.contains, Domain.vanishingAt, decide_eq_true_iff, sub_eq_zero]
  rw [generateKeys]
  dsimp only
  rw [if_neg (not_or.2 ⟨halpha, hbeta⟩), Fp.inverse?_eq_some hgamma, Fp.inverse?_eq_some hdelta]
  dsimp only
  simp only [hcontains]
  rfl

/-- Of a system without a domain there are no keys. -/
theorem generateKeys_of_domain_error (secrets : ∀ a ∈ t.toList, a ≠ 0) {e : DomainError}
    (he : Qap.domainFor s.toConstraintSystem = .error e) :
    (generateKeys s t : Outcome SetupError (ProvingKey G₁ G₂)) = Outcome.report (.domain e) := by
  rw [generateKeys_of_ne_zero secrets, he]
  rfl

/-- With `τ` on the domain there are no keys. -/
theorem generateKeys_of_inside (secrets : ∀ a ∈ t.toList, a ≠ 0)
    (hd : Qap.domainFor s.toConstraintSystem = .ok d) (inside : t.tau ^ d.size = 1) :
    (generateKeys s t : Outcome SetupError (ProvingKey G₁ G₂)) =
      Outcome.report (.degenerate .tauOnDomain) := by
  rw [generateKeys_of_ne_zero secrets, hd]
  exact if_pos inside

/-- With `τ` off the domain, a system that operations record has keys. -/
theorem R1CS.Recorded.generateKeys_ok {session : Nat} {known : List Wire} {ops : List (Operation K)}
    (recorded : s.Recorded session known ops) (few : K.twoAdicity < 58)
    (secrets : ∀ a ∈ t.toList, a ≠ 0) (hd : Qap.domainFor s.toConstraintSystem = .ok d)
    (outside : t.tau ^ d.size ≠ 1) : ∃ pk : ProvingKey G₁ G₂, generateKeys s t = .ok pk := by
  simp only [ToxicWaste.toList, List.forall_mem_cons] at secrets
  obtain ⟨htau, halpha, hbeta, hgamma, hdelta, -⟩ := secrets
  exact Groth16.generateKeys_ok hd (Domain.size_le_maxListed hd few) recorded.records.below
    recorded.numInstance_le ⟨htau, halpha, hbeta, hgamma, hdelta⟩ outside

end

/-! ## Runs -/

section
variable {s : R1CS K} {σ : Type} [RandomSource σ] {state left : σ}

/-- Secrets that are drawn give the keys that are generated from them. -/
theorem runOn_setup_of_drawn (modulus : s.modulus = K.descriptor) {t : ToxicWaste K} {m : Nat}
    (drawn : DrawnFrom state 0 t.toList m) :
    (setup s : Draws σ (Failure SetupError) (ProvingKey G₁ G₂)).runOn state =
      (generateKeys s t, after state m) := by
  rw [setup, modulus, Modulus.ensure_descriptor]
  dsimp only
  rw [Draws.runOn_bind_of_ok (ToxicWaste.runOn_sample_of_drawn drawn)]
  rcases (generateKeys s t : Outcome SetupError (ProvingKey G₁ G₂)) with e | pk
  · rfl
  · rfl

/-- Without secrets, a setup ends as the draws do. -/
theorem runOn_setup_of_error (modulus : s.modulus = K.descriptor) {e : Failure SetupError}
    (failed : (ToxicWaste.sample K).runOn state = (.error e, left)) :
    (setup s : Draws σ (Failure SetupError) (ProvingKey G₁ G₂)).runOn state = (.error e, left) := by
  rw [setup, modulus, Modulus.ensure_descriptor]
  exact Draws.runOn_bind_of_error failed

/-- Both halves are those of the proving key, and the state of the source is the same. -/
theorem runOn_setupPair {answer : Outcome SetupError (ProvingKey G₁ G₂)}
    (h : (setup s).runOn state = (answer, left)) :
    (setupPair s).runOn state = (answer.map fun pk => (pk, pk.vk), left) := by
  rw [setupPair, bind_pure_comp, Draws.runOn_map, h]

end

/-- **How a setup can end** on a source, and in which state of the source.  The secrets are `τ`,
`α`, `β`, `γ` and `δ`, in this order. -/
inductive SetupEnds (s : R1CS K) {σ : Type} [RandomSource σ] (state : σ) :
    Outcome SetupError (ProvingKey G₁ G₂ × VerifyingKey G₁ G₂) → σ → Prop where
  /-- All secrets are drawn, the system has a domain, and `τ` is not on it. -/
  | keys {t : ToxicWaste K} {m : Nat} {d : Domain K} {pk : ProvingKey G₁ G₂}
      (drawn : DrawnFrom state 0 t.toList m) (domain : Qap.domainFor s.toConstraintSystem = .ok d)
      (outside : t.tau ^ d.size ≠ 1) (generated : generateKeys s t = .ok pk) :
      SetupEnds s state (.ok (pk, pk.vk)) (after state m)
  /-- Some secrets are drawn, and then the source fails. -/
  | failed {as : List (Fp K)} {m k : Nat} {cause : SourceFailure}
      (short : as.length < ToxicWaste.count) (drawn : DrawnFrom state 0 as m)
      (fails : FailsAt K state m k cause) :
      SetupEnds s state (Outcome.report (.randomness cause)) (after state (m + k + 1))
  /-- Some secrets are drawn, and then there are too many zeros. -/
  | onlyZeros {as : List (Fp K)} {m : Nat} (short : as.length < ToxicWaste.count)
      (drawn : DrawnFrom state 0 as m) (zeros : ZerosFrom K state m Fp.maxZeroDraws) :
      SetupEnds s state (Outcome.report (.degenerate .onlyZeros))
        (after state (m + Fp.maxZeroDraws))
  /-- All secrets are drawn, and the system is too large. -/
  | tooLarge {t : ToxicWaste K} {m size : Nat} (drawn : DrawnFrom state 0 t.toList m)
      (large : 2 ^ K.twoAdicity < Qap.numRows s.toConstraintSystem)
      (reported : Qap.domainFor s.toConstraintSystem = .error (.tooLarge size)) :
      SetupEnds s state (Outcome.report (.domain (.tooLarge size))) (after state m)
  /-- All secrets are drawn, and `τ` is on the domain. -/
  | tauOnDomain {t : ToxicWaste K} {m : Nat} {d : Domain K} (drawn : DrawnFrom state 0 t.toList m)
      (domain : Qap.domainFor s.toConstraintSystem = .ok d) (inside : t.tau ^ d.size = 1) :
      SetupEnds s state (Outcome.report (.degenerate .tauOnDomain)) (after state m)

section
variable [prime : Fact K.modulus.Prime] {s : R1CS K} {σ : Type} [RandomSource σ] {state : σ}

/-- What is listed is how a setup ends. -/
theorem SetupEnds.runOn (modulus : s.modulus = K.descriptor)
    {answer : Outcome SetupError (ProvingKey G₁ G₂ × VerifyingKey G₁ G₂)} {left : σ}
    (h : SetupEnds s state answer left) : (setupPair s).runOn state = (answer, left) := by
  cases h with
  | keys drawn _ _ generated =>
    rw [runOn_setupPair (runOn_setup_of_drawn modulus drawn), generated]
    rfl
  | failed short drawn fails =>
    have hsample :=
      ToxicWaste.runOn_sample_of_short drawn short (ToxicWaste.runOn_draw_of_fails fails)
    exact runOn_setupPair (runOn_setup_of_error modulus hsample)
  | onlyZeros short drawn zeros =>
    have hsample :=
      ToxicWaste.runOn_sample_of_short drawn short (ToxicWaste.runOn_draw_of_zeros zeros)
    exact runOn_setupPair (runOn_setup_of_error modulus hsample)
  | tooLarge drawn _ reported =>
    rw [runOn_setupPair (runOn_setup_of_drawn modulus drawn),
      generateKeys_of_domain_error drawn.ne_zero reported]
    rfl
  | tauOnDomain drawn domain inside =>
    rw [runOn_setupPair (runOn_setup_of_drawn modulus drawn),
      generateKeys_of_inside drawn.ne_zero domain inside]
    rfl

end

section
variable {s : R1CS K} {session : Nat} {known : List Wire} {ops : List (Operation K)}

/-- The systems that have a domain. -/
theorem exists_domainFor_iff (roots : K.HasRoots) (few : K.twoAdicity < 58) :
    (∃ d, Qap.domainFor s.toConstraintSystem = .ok d) ↔
      Qap.numRows s.toConstraintSystem ≤ 2 ^ K.twoAdicity := by
  rw [Qap.domainFor, Domain.exists_ofSize_iff roots (few.trans (by decide))]
  exact and_iff_right (Nat.succ_pos _)

/-- There is no other way for a setup to end. -/
theorem exists_setupEnds (roots : K.HasRoots) (few : K.twoAdicity < 58)
    (recorded : s.Recorded session known ops) {σ : Type} [RandomSource σ] (state : σ) :
    ∃ (answer : Outcome SetupError (ProvingKey G₁ G₂ × VerifyingKey G₁ G₂)) (left : σ),
      SetupEnds s state answer left := by
  have : Fact K.modulus.Prime := ⟨roots.prime⟩
  rcases ToxicWaste.sample_cases K state with ⟨t, m, drawn⟩ |
    ⟨as, m, short, drawn, ⟨k, cause, fails⟩ | zeros⟩
  · by_cases large : Qap.numRows s.toConstraintSystem ≤ 2 ^ K.twoAdicity
    · obtain ⟨d, domain⟩ := (exists_domainFor_iff roots few).2 large
      by_cases inside : t.tau ^ d.size = 1
      · exact ⟨_, _, .tauOnDomain drawn domain inside⟩
      · obtain ⟨pk, generated⟩ : ∃ pk : ProvingKey G₁ G₂, generateKeys s t = .ok pk :=
          recorded.generateKeys_ok few drawn.ne_zero domain inside
        exact ⟨_, _, .keys drawn domain inside generated⟩
    · rw [Nat.not_le] at large
      exact ⟨_, _, .tooLarge drawn large (Domain.ofSize_of_large large)⟩
  · exact ⟨_, _, .failed short drawn fails⟩
  · exact ⟨_, _, .onlyZeros short drawn zeros⟩

/-- **A setup ends in one of these ways**, and is given each of them by its source. -/
theorem runOn_setupPair_iff (roots : K.HasRoots) (few : K.twoAdicity < 58)
    (recorded : s.Recorded session known ops) {σ : Type} [RandomSource σ] {state left : σ}
    {answer : Outcome SetupError (ProvingKey G₁ G₂ × VerifyingKey G₁ G₂)} :
    (setupPair s).runOn state = (answer, left) ↔ SetupEnds s state answer left := by
  have : Fact K.modulus.Prime := ⟨roots.prime⟩
  refine ⟨fun h => ?_, SetupEnds.runOn recorded.modulus⟩
  obtain ⟨answer', left', hends⟩ :
      ∃ (answer' : Outcome SetupError (ProvingKey G₁ G₂ × VerifyingKey G₁ G₂)) (left' : σ),
        SetupEnds s state answer' left' := exists_setupEnds roots few recorded state
  obtain ⟨rfl, rfl⟩ := Prod.mk.inj (h.symm.trans (hends.runOn recorded.modulus))
  exact hends

end

/-- **A setup gives no degenerate keys.**  Let a circuit be compiled, over a field with roots of
unity whose domains can be held in memory, as the scalar fields of both curves are, and run a setup
for the system on any source.  The setup ends in one of the five ways that are listed.  There are
keys exactly if all five secrets are drawn, the system has a domain, which is to say that its rows
fit on one, and `τ` is not on it; and then none of the points that depend on the secrets alone is at
infinity, and the verifying key is that of the proving key. -/
theorem setup_never_degenerate [LawfulScalarGroup K G₁] [LawfulScalarGroup K G₂]
    (roots : K.HasRoots) (few : K.twoAdicity < 58) {c : Circuit K} {modulus : Modulus}
    {session : Nat} {calls : List (Call K)} {r : R1CS K}
    (compilation : Compilation c modulus session calls r) {σ : Type} [RandomSource σ] (state : σ) :
    (∀ (answer : Outcome SetupError (ProvingKey G₁ G₂ × VerifyingKey G₁ G₂)) (left : σ),
      (setupPair r).runOn state = (answer, left) ↔ SetupEnds r state answer left) ∧
    ((∃ d, Qap.domainFor r.toConstraintSystem = .ok d) ↔
      Qap.numRows r.toConstraintSystem ≤ 2 ^ K.twoAdicity) ∧
    ((∃ (keys : ProvingKey G₁ G₂ × VerifyingKey G₁ G₂) (left : σ),
        (setupPair r).runOn state = (.ok keys, left)) ↔
      ∃ (t : ToxicWaste K) (m : Nat) (d : Domain K), DrawnFrom state 0 t.toList m ∧
        Qap.domainFor r.toConstraintSystem = .ok d ∧ t.tau ^ d.size ≠ 1) ∧
    ∀ (pk : ProvingKey G₁ G₂) (vk : VerifyingKey G₁ G₂) (left : σ),
      (setupPair r).runOn state = (.ok (pk, vk), left) → pk.vk = vk ∧ pk.Nondegenerate := by
  have : Fact K.modulus.Prime := ⟨roots.prime⟩
  obtain ⟨ops, recorded, -⟩ := compilation.exists_recorded
  refine ⟨fun answer left => runOn_setupPair_iff roots few recorded, exists_domainFor_iff roots few,
    ⟨?_, ?_⟩, fun pk vk left h => ?_⟩
  · rintro ⟨keys, left, h⟩
    cases (runOn_setupPair_iff roots few recorded).1 h with
    | keys drawn domain outside _ => exact ⟨_, _, _, drawn, domain, outside⟩
  · rintro ⟨t, m, d, drawn, domain, outside⟩
    obtain ⟨pk, generated⟩ : ∃ pk : ProvingKey G₁ G₂, generateKeys r t = .ok pk :=
      recorded.generateKeys_ok few drawn.ne_zero domain outside
    exact ⟨_, _, (SetupEnds.keys drawn domain outside generated).runOn recorded.modulus⟩
  · cases (runOn_setupPair_iff roots few recorded).1 h with
    | keys _ _ _ generated =>
      obtain ⟨d, q, keys⟩ := generateKeys_eq_ok generated
      exact ⟨rfl, keys.nondegenerate⟩

namespace Sample

theorem hasRoots : field.HasRoots := by
  have hcertified : CertifiedFrom [2, 3] [⟨field, [(2, 5), (3, 1)]⟩] := by decide +kernel
  exact hcertified.hasRoots (by norm_num) List.mem_cons_self (by decide) (by decide)

/-- A source of the secrets that draws one zero, which is a multiple of the modulus, on the way. -/
def secretSource : Script := ⟨[[5], [97], [2], [3], [4], [6]].map some⟩

theorem drawn_secrets : DrawnFrom secretSource 0 secrets.toList 6 := by
  have hzeros : ∀ n, ZerosFrom field secretSource n 0 := fun n i hi => absurd hi (Nat.not_lt_zero i)
  have hzero : ZerosFrom field secretSource 1 1 := by
    intro i hi
    obtain rfl := Nat.lt_one_iff.1 hi
    rfl
  exact .cons ⟨by decide, hzeros 0, rfl, by decide⟩ <|
    .cons ⟨by decide, hzero, rfl, by decide⟩ <| .cons ⟨by decide, hzeros 3, rfl, by decide⟩ <|
    .cons ⟨by decide, hzeros 4, rfl, by decide⟩ <|
    .cons ⟨by decide, hzeros 5, rfl, by decide⟩ <| .nil 6

/-- A source that answers with zeros only. -/
def zeroSource : Script := ⟨List.replicate 40 (some [])⟩

theorem zerosFrom_zeroSource : ZerosFrom field zeroSource 0 Fp.maxZeroDraws := by
  unfold ZerosFrom
  decide +kernel

end Sample

/-- The secrets of the source give keys that are not degenerate, and the source of zeros is given up
after eight draws. -/
theorem setup_never_degenerate_sample :
    ∃ r, Compilation Sample.circuit Sample.field.descriptor 1 Sample.calls r ∧
      (∃ (pk : ProvingKey (Logarithm Sample.field) (Logarithm Sample.field)) (left : Script),
        (setupPair r).runOn Sample.secretSource = (.ok (pk, pk.vk), left) ∧ pk.Nondegenerate) ∧
      (setupPair r).runOn Sample.zeroSource =
        ((Outcome.report (.degenerate .onlyZeros) : Outcome SetupError
            (ProvingKey (Logarithm Sample.field) (Logarithm Sample.field) ×
              VerifyingKey (Logarithm Sample.field) (Logarithm Sample.field))),
          after Sample.zeroSource 8) := by
  obtain ⟨r, h⟩ := Sample.exists_compilation
  obtain ⟨-, -, hkeys, hpair⟩ := @setup_never_degenerate Sample.field (Logarithm Sample.field)
    (Logarithm Sample.field) _ _ _ _ Sample.hasRoots (by decide) _ _ _ _ _ h _ _ Sample.secretSource
  obtain ⟨hends, -⟩ := @setup_never_degenerate Sample.field (Logarithm Sample.field)
    (Logarithm Sample.field) _ _ _ _ Sample.hasRoots (by decide) _ _ _ _ _ h _ _ Sample.zeroSource
  obtain ⟨⟨pk, vk⟩, left, hrun⟩ :=
    hkeys.2 ⟨Sample.secrets, 6, Sample.domain, Sample.drawn_secrets, Sample.domainFor_eq h,
      by decide +kernel⟩
  obtain ⟨rfl, hpk⟩ := hpair pk vk left hrun
  exact ⟨r, h, ⟨pk, left, hrun, hpk⟩,
    (hends _ _).2 (.onlyZeros (by decide) (.nil 0) Sample.zerosFrom_zeroSource)⟩

end Groth16
