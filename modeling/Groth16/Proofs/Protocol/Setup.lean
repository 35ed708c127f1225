import Groth16.Proofs.Circuit.Witnesses
import Groth16.Proofs.Curve.Multiples
import Groth16.Proofs.Qap.Columns
import Groth16.Protocol.Setup

/-!
# What a setup yields

* `Generated`: keys of secrets, with the domain and the columns that they were made from.
* `generateKeys_eq_ok`: keys that are generated are of this kind, and no secret is degenerate.
* `generateKeys_ok`: secrets that are not degenerate give keys.
* `combinedAt`: the scalar `β uᵢ + α vᵢ + wᵢ` of a wire.
-/

set_option autoImplicit false

namespace Groth16

variable {K : PrimeField} {G₁ G₂ : Type} [ScalarGroup K G₁] [ScalarGroup K G₂]

/-- The keys are those of the secrets for the system, with the polynomials of its wires evaluated
over its domain. -/
structure Generated [Fact K.modulus.Prime] (s : R1CS K) (t : ToxicWaste K) (d : Domain K)
    (q : Qap.Evaluations K) (pk : ProvingKey G₁ G₂) : Prop where
  /-- No secret is zero. -/
  secrets_ne_zero : t.tau ≠ 0 ∧ t.alpha ≠ 0 ∧ t.beta ≠ 0
  /-- `γ` is not zero. -/
  gamma_ne_zero : t.gamma ≠ 0
  /-- `δ` is not zero. -/
  delta_ne_zero : t.delta ≠ 0
  /-- The domain is that of the system. -/
  domain : Qap.domainFor s.toConstraintSystem = .ok d
  /-- The polynomials were evaluated at `τ`. -/
  evaluated : Qap.Evaluated s.toConstraintSystem d t.tau q
  /-- The keys are made from them. -/
  keys : pk = keysOf s t t.gamma⁻¹ t.delta⁻¹ d q

section
variable [prime : Fact K.modulus.Prime] {s : R1CS K} {t : ToxicWaste K} {d : Domain K}
  {q : Qap.Evaluations K} {pk : ProvingKey G₁ G₂}

theorem Generated.valid (h : Generated s t d q pk) : d.Valid := (Domain.ofSize_valid h.domain).1

/-- **Keys that are generated** are made from columns of the system, with secrets none of which is
degenerate. -/
theorem generateKeys_eq_ok (h : generateKeys s t = .ok pk) : ∃ d q, Generated s t d q pk := by
  rw [generateKeys] at h
  dsimp only at h
  split at h
  · cases h
  · next hzero =>
    rw [not_or] at hzero
    by_cases hgamma : t.gamma = 0
    · rw [Fp.inverse?_eq_none_iff.2 hgamma] at h
      cases h
    · by_cases hdelta : t.delta = 0
      · rw [Fp.inverse?_eq_some hgamma, Fp.inverse?_eq_none_iff.2 hdelta] at h
        cases h
      · rw [Fp.inverse?_eq_some hgamma, Fp.inverse?_eq_some hdelta] at h
        obtain ⟨d, hd, h⟩ := Outcome.bind_eq_ok.1 h
        rw [Outcome.mapError_eq_ok, Outcome.ofExcept_eq_ok] at hd
        split at h
        · cases h
        · next htau =>
          rw [not_or] at htau
          obtain ⟨q, hq, h⟩ := Outcome.bind_eq_ok.1 h
          have hevaluated := Qap.evaluateAt_eq_ok (Domain.ofSize_valid hd).1
            (Outcome.mapError_eq_ok.1 hq)
          exact ⟨d, q, ⟨htau.1, hzero.1, hzero.2⟩, hgamma, hdelta, hd, hevaluated,
            (Except.ok.inj h).symm⟩

/-- **Secrets that are not degenerate give keys**, for every system that has a domain and mentions
only its wires. -/
theorem generateKeys_ok (hd : Qap.domainFor s.toConstraintSystem = .ok d)
    (listed : d.size ≤ Domain.maxListed)
    (below : ∀ c ∈ s.constraints.toList, c.Below s.numWires) (inside : s.numInstance ≤ s.numWires)
    (secrets : t.tau ≠ 0 ∧ t.alpha ≠ 0 ∧ t.beta ≠ 0 ∧ t.gamma ≠ 0 ∧ t.delta ≠ 0)
    (outside : t.tau ^ d.size ≠ 1) : ∃ pk : ProvingKey G₁ G₂, generateKeys s t = .ok pk := by
  obtain ⟨htau, halpha, hbeta, hgamma, hdelta⟩ := secrets
  obtain ⟨q, hq⟩ := Qap.evaluateAt_ok (Domain.ofSize_valid hd).2 listed below inside outside
  have hcontains : d.contains t.tau = false := by
    rw [Domain.contains, Domain.vanishingAt]
    exact decide_eq_false (sub_ne_zero.2 outside)
  refine ⟨keysOf s t t.gamma⁻¹ t.delta⁻¹ d q, ?_⟩
  rw [generateKeys]
  dsimp only
  rw [if_neg (not_or.2 ⟨halpha, hbeta⟩), Fp.inverse?_eq_some hgamma, Fp.inverse?_eq_some hdelta, hd]
  change (if t.tau = 0 ∨ d.contains t.tau = true then _ else _) = _
  rw [if_neg (not_or.2 ⟨htau, by simp [hcontains]⟩), hq]
  rfl

/-! ## The points of the keys -/

omit prime

/-- The scalar that a wire contributes to the third point of a proof. -/
def combinedAt (t : ToxicWaste K) (q : Qap.Evaluations K) (i : Nat) : Fp K :=
  t.beta * vectorAt q.u i + t.alpha * vectorAt q.v i + vectorAt q.w i

theorem length_combined {n : Nat} (hu : q.u.size = n) (hv : q.v.size = n) (hw : q.w.size = n) :
    (combined t q).length = n := by
  rw [combined, List.length_zipWith, List.length_zipWith, Array.length_toList, Array.length_toList,
    Array.length_toList, hu, hv, hw, Nat.min_self, Nat.min_self]

theorem getElem?_combined {n i : Nat} (hu : q.u.size = n) (hv : q.v.size = n) (hw : q.w.size = n)
    (hi : i < n) : (combined t q)[i]? = some (combinedAt t q i) := by
  rw [combined, List.getElem?_zipWith, List.getElem?_zipWith, Array.getElem?_toList,
    Array.getElem?_toList, Array.getElem?_toList, getElem?_eq_vectorAt (by rwa [hu]),
    getElem?_eq_vectorAt (by rwa [hv]), getElem?_eq_vectorAt (by rwa [hw])]
  rfl

end

/-! ## Keys of a circuit -/

namespace Sample

/-- Secrets that are not degenerate. -/
def secrets : ToxicWaste field :=
  ⟨.ofNat field 5, .ofNat field 2, .ofNat field 3, .ofNat field 4, .ofNat field 6⟩

/-- The domain of the circuit. -/
def domain : Domain field := ⟨32, Fp.ofNat field 5 ^ 3, Fp.ofNat field 5⟩

theorem domainFor_eq {r : R1CS field} (h : Compilation circuit field.descriptor 1 calls r) :
    Qap.domainFor r.toConstraintSystem = .ok domain := by
  obtain ⟨ops, ⟨-, -, -, records⟩, hcalls⟩ := h.exists_recorded
  obtain ⟨rfl, -⟩ := hcalls (successful_callsOf 1 3 operations)
  have hrows : Qap.numRows r.toConstraintSystem = 24 := by
    rw [Qap.numRows, ConstraintSystem.numConstraints, ← Array.length_toList, records.constraints,
      ConstraintSystem.numPublic, h.names.1, firstInternal_eq h]
    decide +kernel
  rw [Qap.domainFor, hrows]
  decide +kernel

theorem exists_keys {r : R1CS field} (h : Compilation circuit field.descriptor 1 calls r) :
    ∃ pk : ProvingKey (Logarithm field) (Logarithm field), generateKeys r secrets = .ok pk := by
  obtain ⟨ops, recorded, -⟩ := h.exists_recorded
  refine generateKeys_ok (domainFor_eq h) ?_ recorded.records.below recorded.numInstance_le ?_ ?_
  · decide +kernel
  · decide +kernel
  · decide +kernel

end Sample

end Groth16
