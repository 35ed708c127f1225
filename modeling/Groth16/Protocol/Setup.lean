import Groth16.Curve.Multiples
import Groth16.Field.Sample
import Groth16.Protocol.Keys
import Groth16.Qap

/-!
# Trusted setup

The keys of a constraint system, from five secrets: the point `τ` at which the polynomials of the
system are evaluated, and `α`, `β`, `γ`, `δ`, which tie the parts of a proof together. Whoever knows
the secrets can forge proofs.

* `ToxicWaste`: the secrets.
* `ToxicWaste.sample`: five non-zero draws from a source.
* `generateKeys`: the keys of given secrets.
* `setup`: both together; `setupPair` gives the verifying key by itself as well.
-/

set_option autoImplicit false

namespace Groth16

/-- Why secrets give no usable keys. -/
inductive Degeneracy where
  /-- Eight draws in a row were zero. -/
  | onlyZeros
  /-- `α` or `β` is zero. -/
  | alphaOrBetaZero
  /-- `γ` is zero. -/
  | gammaZero
  /-- `δ` is zero. -/
  | deltaZero
  /-- `τ` is zero or a point of the domain. -/
  | tauOnDomain
  deriving DecidableEq

/-- The reason in words. -/
def Degeneracy.reason : Degeneracy → String
  | .onlyZeros => "rng keeps yielding zero"
  | .alphaOrBetaZero => "alpha or beta is zero"
  | .gammaZero => "gamma is zero"
  | .deltaZero => "delta is zero"
  | .tauOnDomain => "tau lies on the evaluation domain"

/-- Why there are no keys. -/
inductive SetupError where
  /-- The source of randomness failed. -/
  | randomness (cause : SourceFailure)
  /-- The secrets are degenerate. -/
  | degenerate (cause : Degeneracy)
  /-- The system has no domain, or `τ` lies on it. -/
  | domain (cause : DomainError)
  /-- The system was compiled for another field. -/
  | field (cause : ModulusMismatch)
  deriving DecidableEq

/-- The text of the error. -/
def SetupError.message : SetupError → String
  | .randomness cause => s!"randomness source failed: {cause.message}"
  | .degenerate cause => s!"degenerate toxic waste ({cause.reason}); retry with fresh randomness"
  | .domain cause => cause.message
  | .field cause => cause.message

/-- The secrets of a setup. -/
structure ToxicWaste (K : PrimeField) where
  /-- The point of evaluation. -/
  tau : Fp K
  /-- Ties the three points of a proof to one vector of wires. -/
  alpha : Fp K
  /-- Ties the three points of a proof to one vector of wires. -/
  beta : Fp K
  /-- Keeps the public part apart. -/
  gamma : Fp K
  /-- Keeps the private part apart. -/
  delta : Fp K
  deriving DecidableEq

variable {K : PrimeField}

namespace ToxicWaste

variable {σ : Type} [RandomSource σ]

/-- A non-zero draw. -/
def draw (K : PrimeField) : Draws σ (Failure SetupError) (Fp K) := do
  match ← Fp.sampleNonzero K fun e => .reported (.randomness e) with
  | some a => return a
  | none => throw (.reported (.degenerate .onlyZeros))

/-- Five non-zero draws, in the order of the fields. -/
def sample (K : PrimeField) : Draws σ (Failure SetupError) (ToxicWaste K) := do
  let tau ← draw K
  let alpha ← draw K
  let beta ← draw K
  let gamma ← draw K
  let delta ← draw K
  return ⟨tau, alpha, beta, gamma, delta⟩

end ToxicWaste

section
variable {G₁ G₂ : Type} [ScalarGroup K G₁] [ScalarGroup K G₂]

/-- `β uᵢ + α vᵢ + wᵢ` for every wire. -/
def combined (t : ToxicWaste K) (q : Qap.Evaluations K) : List (Fp K) :=
  List.zipWith (· + ·)
    (List.zipWith (fun u v => t.beta * u + t.alpha * v) q.u.toList q.v.toList) q.w.toList

/-- The keys of secrets whose `γ` and `δ` have the given inverses. -/
def keysOf (s : R1CS K) (t : ToxicWaste K) (gammaInv deltaInv : Fp K) (d : Domain K)
    (q : Qap.Evaluations K) : ProvingKey G₁ G₂ :=
  let g₁ : G₁ := ScalarGroup.generator
  let g₂ : G₂ := ScalarGroup.generator
  let all := combined t q
  let known := (all.take s.numInstance).map (· * gammaInv)
  let hidden := (all.drop s.numInstance).map (· * deltaInv)
  let quotients := powers (q.vanishing * deltaInv) t.tau (Qap.quotientLength d.size)
  { vk :=
      { alpha := t.alpha • g₁
        beta := t.beta • g₂
        gamma := t.gamma • g₂
        delta := t.delta • g₂
        instancePoints := fixedBase g₁ known
        digest := s.digest }
    beta := t.beta • g₁
    delta := t.delta • g₁
    aPoints := fixedBase g₁ q.u.toList
    bPoints := fixedBase g₁ q.v.toList
    bPoints₂ := fixedBase g₂ q.v.toList
    quotientPoints := fixedBase g₁ quotients
    privatePoints := fixedBase g₁ hidden
    domainSize := UInt64.ofNat d.size }

/-- The keys of a constraint system for given secrets. -/
def generateKeys (s : R1CS K) (t : ToxicWaste K) : Outcome SetupError (ProvingKey G₁ G₂) := do
  let degenerate {α : Type} (d : Degeneracy) : Outcome SetupError α :=
    Outcome.report (.degenerate d)
  if t.alpha = 0 ∨ t.beta = 0 then degenerate .alphaOrBetaZero
  else match t.gamma.inverse?, t.delta.inverse? with
    | none, _ => degenerate .gammaZero
    | _, none => degenerate .deltaZero
    | some gammaInv, some deltaInv => do
      let d ← (Outcome.ofExcept (Qap.domainFor s.toConstraintSystem)).mapError SetupError.domain
      if t.tau = 0 ∨ d.contains t.tau then degenerate .tauOnDomain
      else do
        let q ← (Qap.evaluateAt s.toConstraintSystem d t.tau).mapError SetupError.domain
        return keysOf s t gammaInv deltaInv d q

/-- Draws secrets from a source and generates the keys of a constraint system. The caller destroys
the state of the source. -/
def setup {σ : Type} [RandomSource σ] (s : R1CS K) :
    Draws σ (Failure SetupError) (ProvingKey G₁ G₂) := do
  match s.modulus.ensure K with
  | .error e => throw (.reported (.field e))
  | .ok _ => do
    let t ← ToxicWaste.sample K
    match generateKeys s t with
    | .ok pk => return pk
    | .error e => throw e

/-- Both halves of a setup, the verifying key by itself as well. -/
def setupPair {σ : Type} [RandomSource σ] (s : R1CS K) :
    Draws σ (Failure SetupError) (ProvingKey G₁ G₂ × VerifyingKey G₁ G₂) := do
  let pk ← setup s
  return (pk, pk.vk)

end

end Groth16
