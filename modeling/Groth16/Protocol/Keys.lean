import Groth16.Curve.Groups
import Groth16.Hash.Digest

/-!
# Keys and proofs

The values that setup, prover and verifier exchange. `[x]₁` and `[x]₂` stand for the multiples of
the generators of the two groups by `x`.

* `VerifyingKey`, `ProvingKey`: the two halves of a setup.
* `Proof`: three points.
* `PreparedKey`: a verifying key with the parts of the check that do not depend on the proof.
-/

set_option autoImplicit false

namespace Groth16

/-- What a verifier needs of a setup. -/
structure VerifyingKey (G₁ G₂ : Type) where
  /-- `[α]₁`. -/
  alpha : G₁
  /-- `[β]₂`. -/
  beta : G₂
  /-- `[γ]₂`. -/
  gamma : G₂
  /-- `[δ]₂`. -/
  delta : G₂
  /-- `[(β uᵢ(τ) + α vᵢ(τ) + wᵢ(τ)) / γ]₁` for the instance wires. -/
  instancePoints : List G₁
  /-- The digest of the constraint system. -/
  digest : Digest
  deriving DecidableEq

/-- The number of public inputs that the key is for. -/
def VerifyingKey.numPublic {G₁ G₂ : Type} (vk : VerifyingKey G₁ G₂) : Nat :=
  vk.instancePoints.length - 1

/-- What a prover needs of a setup. -/
structure ProvingKey (G₁ G₂ : Type) where
  /-- The other half. -/
  vk : VerifyingKey G₁ G₂
  /-- `[β]₁`. -/
  beta : G₁
  /-- `[δ]₁`. -/
  delta : G₁
  /-- `[uᵢ(τ)]₁` for every wire. -/
  aPoints : List G₁
  /-- `[vᵢ(τ)]₁` for every wire. -/
  bPoints : List G₁
  /-- `[vᵢ(τ)]₂` for every wire. -/
  bPoints₂ : List G₂
  /-- `[τⁱ (τ^N - 1) / δ]₁` for the coefficients of a quotient. -/
  quotientPoints : List G₁
  /-- `[(β uᵢ(τ) + α vᵢ(τ) + wᵢ(τ)) / δ]₁` for the other wires. -/
  privatePoints : List G₁
  /-- The size `N` of the domain. -/
  domainSize : UInt64
  deriving DecidableEq

/-- A proof. -/
structure Proof (G₁ G₂ : Type) where
  /-- The first point. -/
  a : G₁
  /-- The second point. -/
  b : G₂
  /-- The third point. -/
  c : G₁
  deriving DecidableEq

/-- A verifying key with `e(α, β)`, `-γ` and `-δ`. -/
structure PreparedKey (G₁ G₂ T : Type) where
  /-- The key. -/
  vk : VerifyingKey G₁ G₂
  /-- `e([α]₁, [β]₂)`. -/
  alphaBeta : T
  /-- `-[γ]₂`. -/
  negGamma : G₂
  /-- `-[δ]₂`. -/
  negDelta : G₂
  deriving DecidableEq

end Groth16
