import Groth16.Proofs.Outcome
import Groth16.Protocol.Prover

/-!
# The checks of the prover

Before the prover draws anything it compares the key and the witness with the system.  One of the
sizes that it compares with is a difference, which is there only if the system has as many wires as
the verifier knows.

* `ProvingKey.Fits`: what the checks establish.
* `checkSizes_eq_ok_iff`, `checkSizes_ne_breach`: comparing a list of sizes.
* `ProvingKey.fits_eq_ok_iff`: the checks pass exactly if the key and the witness fit.
* `ProvingKey.fits_ne_breach`: where the difference is there, no check breaks a precondition.
* `prepareProof_eq_ok`: what is there before the draws.
-/

set_option autoImplicit false

namespace Groth16

variable {K : PrimeField} {G₁ G₂ : Type}

/-- The key and the witness are those of the system, and every part of the key has the size that the
system asks for. -/
structure ProvingKey.Fits (pk : ProvingKey G₁ G₂) (s : R1CS K) (w : Witness K) (d : Domain K) :
    Prop where
  /-- The key is for the system. -/
  keyDigest : pk.vk.digest = s.digest
  /-- The witness is for the system. -/
  witnessDigest : w.digest = s.digest
  /-- The witness has a value for every wire. -/
  values : w.values.size = s.numWires
  /-- The domain is that of the system. -/
  domain : Qap.domainFor s.toConstraintSystem = .ok d
  /-- The key is for this domain. -/
  domainSize : pk.domainSize.toNat = d.size
  /-- There is a point for the first factor of every wire. -/
  aPoints : pk.aPoints.length = s.numWires
  /-- There is a point for the second factor of every wire. -/
  bPoints : pk.bPoints.length = s.numWires
  /-- There is one in the second group, too. -/
  bPoints₂ : pk.bPoints₂.length = s.numWires
  /-- The instance wires are among the wires. -/
  inside : s.numInstance ≤ s.numWires
  /-- There is a point for every wire that is not an instance wire. -/
  privatePoints : pk.privatePoints.length = s.numWires - s.numInstance
  /-- There is a point for every instance wire. -/
  instancePoints : pk.vk.instancePoints.length = s.numInstance
  /-- There is a point for every coefficient of a quotient. -/
  quotientPoints : pk.quotientPoints.length = Qap.quotientLength d.size

theorem ConstraintSystem.numPrivate?_eq_some_iff {s : ConstraintSystem K} {n : Nat} :
    s.numPrivate? = some n ↔ s.numInstance ≤ s.numWires ∧ n = s.numWires - s.numInstance := by
  rw [numPrivate?, Option.ite_none_right_eq_some, Option.some.injEq, eq_comm (b := n)]

/-! ## Sizes -/

/-- The sizes pass the check exactly if each is what it should be. -/
theorem checkSizes_eq_ok_iff {parts : List (KeyPart × Nat × Option Nat)} :
    checkSizes parts = .ok () ↔ ∀ part ∈ parts, part.2.2 = some part.2.1 := by
  induction parts with
  | nil => exact iff_of_true rfl (List.forall_mem_nil _)
  | cons part parts ih =>
    obtain ⟨part, got, size⟩ := part
    rw [checkSizes, List.forall_mem_cons, Outcome.bind_eq_ok]
    simp only [Outcome.require_eq_ok]
    constructor
    · rintro ⟨expected, rfl, h⟩
      split at h
      · next heq => exact ⟨by rw [heq], ih.1 h⟩
      · cases h
    · rintro ⟨hsize, hrest⟩
      exact ⟨got, hsize, by rw [if_pos rfl, ih.2 hrest]⟩

/-- Where all sizes can be said, comparing them breaks no precondition. -/
theorem checkSizes_ne_breach {parts : List (KeyPart × Nat × Option Nat)}
    (said : ∀ part ∈ parts, part.2.2 ≠ none) : checkSizes parts ≠ .breach := by
  induction parts with
  | nil => exact fun h => by cases h
  | cons part parts ih =>
    obtain ⟨part, got, size⟩ := part
    rw [List.forall_mem_cons] at said
    obtain ⟨expected, rfl⟩ := Option.ne_none_iff_exists'.1 said.1
    rw [checkSizes, Outcome.require_some, Outcome.ok_bind]
    split
    · exact ih said.2
    · exact fun h => by cases h

/-! ## All checks -/

namespace ProvingKey

variable {pk : ProvingKey G₁ G₂} {s : R1CS K} {w : Witness K} {d : Domain K}

/-- All parts have the size that the system asks for. -/
theorem checkSizes_sizes_iff : checkSizes (pk.sizes s.toConstraintSystem d) = .ok () ↔
    d.size = pk.domainSize.toNat ∧ s.numWires = pk.aPoints.length ∧
      s.numWires = pk.bPoints.length ∧ s.numWires = pk.bPoints₂.length ∧
      s.numPrivate? = some pk.privatePoints.length ∧
      s.numInstance = pk.vk.instancePoints.length ∧
      Qap.quotientLength d.size = pk.quotientPoints.length := by
  rw [checkSizes_eq_ok_iff, sizes]
  simp only [List.forall_mem_cons, List.not_mem_nil, false_implies, implies_true, and_true,
    Option.some.injEq]

/-- **The checks pass exactly if the key and the witness fit** the system, which is over the field as
is the witness. -/
theorem fits_eq_ok_iff : pk.fits s w = .ok d ↔
    s.modulus.ensure K = .ok () ∧ w.modulus.ensure K = .ok () ∧ pk.Fits s w d := by
  rw [fits]
  simp only [Outcome.bind_eq_ok, Outcome.ofExcept_mapError, Outcome.mapError_eq_ok,
    Outcome.ofExcept_eq_ok, Outcome.ite_report_eq_ok, ne_eq, Decidable.not_not]
  constructor
  · rintro ⟨⟨⟩, hsystem, ⟨⟩, hwitness, hkey, hdigest, hvalues, d', hdomain, ⟨⟩, hsizes, hd⟩
    obtain rfl : d' = d := Except.ok.inj hd
    obtain ⟨hd, ha, hb, hb₂, hprivate, hinstance, hquotient⟩ := checkSizes_sizes_iff.1 hsizes
    obtain ⟨inside, hprivate⟩ := ConstraintSystem.numPrivate?_eq_some_iff.1 hprivate
    exact ⟨hsystem, hwitness, hkey, hdigest, hvalues, hdomain, hd.symm, ha.symm, hb.symm, hb₂.symm,
      inside, hprivate, hinstance.symm, hquotient.symm⟩
  · rintro ⟨hsystem, hwitness, fits⟩
    refine ⟨(), hsystem, (), hwitness, fits.keyDigest, fits.witnessDigest, fits.values, d,
      fits.domain, (), checkSizes_sizes_iff.2 ?_, rfl⟩
    exact ⟨fits.domainSize.symm, fits.aPoints.symm, fits.bPoints.symm, fits.bPoints₂.symm,
      ConstraintSystem.numPrivate?_eq_some_iff.2 ⟨fits.inside, fits.privatePoints⟩,
      fits.instancePoints.symm, fits.quotientPoints.symm⟩

/-- **No check breaks a precondition** where the instance wires are among the wires. -/
theorem fits_ne_breach (pk : ProvingKey G₁ G₂) (w : Witness K)
    (inside : s.numInstance ≤ s.numWires) : pk.fits s w ≠ .breach := by
  rw [fits]
  refine Outcome.bind_ne_breach (Outcome.ofExcept_ne_breach _) fun _ _ =>
    Outcome.bind_ne_breach (Outcome.ofExcept_ne_breach _) fun _ _ => ?_
  refine Outcome.ite_report_ne_breach (Outcome.ite_report_ne_breach
    (Outcome.ite_report_ne_breach ?_))
  refine Outcome.bind_ne_breach (Outcome.ofExcept_ne_breach _) fun d _ =>
    Outcome.bind_ne_breach (checkSizes_ne_breach ?_) fun _ _ h => by cases h
  have hprivate : s.numPrivate? ≠ none := by
    rw [ConstraintSystem.numPrivate?, if_pos inside]
    exact Option.some_ne_none _
  rw [sizes]
  simp only [List.forall_mem_cons, List.not_mem_nil, false_implies, implies_true, and_true,
    ne_eq, reduceCtorEq, not_false_eq_true, true_and]
  exact hprivate

end ProvingKey

/-- What is there when all that comes before the draws has ended well. -/
theorem prepareProof_eq_ok {pk : ProvingKey G₁ G₂} {s : R1CS K} {w : Witness K} {h : Array (Fp K)}
    (prepared : prepareProof s pk w = .ok h) :
    ∃ d, pk.Fits s w d ∧ s.check w.values = .ok () ∧
      Qap.quotient s.toConstraintSystem d w.values = .ok h := by
  obtain ⟨d, hfits, prepared⟩ := Outcome.bind_eq_ok.1 prepared
  obtain ⟨⟨⟩, hcheck, hquotient⟩ := Outcome.bind_eq_ok.1 prepared
  obtain ⟨-, -, fits⟩ := ProvingKey.fits_eq_ok_iff.1 hfits
  exact ⟨d, fits, Outcome.mapError_eq_ok.1 hcheck, Outcome.mapError_eq_ok.1 hquotient⟩

end Groth16
