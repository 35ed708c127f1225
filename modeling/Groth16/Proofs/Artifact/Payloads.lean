import Groth16.Artifact.Payload
import Groth16.Proofs.Artifact.Parts

/-!
# Formats of keys and proofs

Keys and proofs are written field by field, so their laws are those of the pairs of their fields.

* `Contents`: the points of a key or a proof, the lengths of its lists, and where its digest begins.
* `LawfulPayload`: keys and proofs of points with a lawful encoding have a lawful format.
* `run_decode_verifyingKey_eq_breach`, …: where reading breaks a precondition.
-/

set_option autoImplicit false

namespace Groth16

/-- What a value that is kept as bytes consists of. -/
class Contents (α : Type) (G₁ G₂ : outParam Type) where
  /-- The points of the first group. -/
  points₁ : α → List G₁
  /-- The points of the second group. -/
  points₂ : α → List G₂
  /-- The lengths of the lists. -/
  lengths : α → List Nat
  /-- How many bytes stand before the digest, if there is one. -/
  digestStart : α → Option Nat

namespace Contents

variable {α G₁ G₂ : Type} [PointEncoding G₁] [PointEncoding G₂] [LawfulPointEncoding G₁]
  [LawfulPointEncoding G₂] [Contents α G₁ G₂]

/-- The lengths of the lists fit into eight bytes, as those of all lists in memory do. -/
def Sized (v : α) : Prop := ∀ n ∈ lengths v, n < 256 ^ 8

/-- The value consists of points of the groups. -/
structure Valid (v : α) : Prop where
  /-- The points of the first group are points of it. -/
  points₁ : ∀ p ∈ points₁ v, Format.IsGroupPoint p
  /-- The points of the second group are points of it. -/
  points₂ : ∀ p ∈ points₂ v, Format.IsGroupPoint p
  /-- The lists are not too long. -/
  sized : Sized v

/-- No point of the value is at infinity. -/
structure Finite (v : α) : Prop where
  /-- The points of the first group are finite. -/
  points₁ : ∀ p ∈ points₁ v, LawfulPointEncoding.IsFinite p
  /-- The points of the second group are finite. -/
  points₂ : ∀ p ∈ points₂ v, LawfulPointEncoding.IsFinite p

/-- The first `n` bytes of the value end behind the first byte of the digest or right before it, and
before its last. -/
def SplitsDigest (v : α) (n : Nat) : Prop :=
  ∃ start ∈ digestStart v, start ≤ n ∧ n < start + 32

end Contents

/-- The encoding of a payload and its reader, as a format. -/
def Format.payload {α G₁ G₂ : Type} [Payload α] [Contents α G₁ G₂] : Format α where
  write := Payload.encode
  read := Payload.decode
  splitsDigest := Contents.SplitsDigest

/-- What is asked of the encoding of a payload. -/
class LawfulPayload (α G₁ G₂ : Type) [PointEncoding G₁] [PointEncoding G₂] [LawfulPointEncoding G₁]
    [LawfulPointEncoding G₂] [Payload α] [Contents α G₁ G₂] : Prop where
  /-- The laws of the format. -/
  lawful : (Format.payload : Format α).Lawful Contents.Valid Contents.Finite Contents.Sized

variable {G₁ G₂ : Type} [PointEncoding G₁] [PointEncoding G₂]

open PointEncoding

instance : Contents (VerifyingKey G₁ G₂) G₁ G₂ where
  points₁ vk := vk.alpha :: vk.instancePoints
  points₂ vk := [vk.beta, vk.gamma, vk.delta]
  lengths vk := [vk.instancePoints.length]
  digestStart vk := some (encode vk.alpha ++ encode vk.beta ++ encode vk.gamma ++ encode vk.delta ++
    encodePoints vk.instancePoints).length

instance : Contents (ProvingKey G₁ G₂) G₁ G₂ where
  points₁ pk := Contents.points₁ pk.vk ++ [pk.beta, pk.delta] ++ pk.aPoints ++ pk.bPoints ++
    pk.quotientPoints ++ pk.privatePoints
  points₂ pk := Contents.points₂ pk.vk ++ pk.bPoints₂
  lengths pk := Contents.lengths pk.vk ++ [pk.aPoints.length, pk.bPoints.length,
    pk.bPoints₂.length, pk.quotientPoints.length, pk.privatePoints.length]
  digestStart pk := Contents.digestStart pk.vk

/-! The unfolded definitions keep the key inside as it is. -/

theorem Contents.points₁_provingKey (pk : ProvingKey G₁ G₂) : Contents.points₁ pk =
    Contents.points₁ pk.vk ++ [pk.beta, pk.delta] ++ pk.aPoints ++ pk.bPoints ++
      pk.quotientPoints ++ pk.privatePoints := rfl

theorem Contents.points₂_provingKey (pk : ProvingKey G₁ G₂) :
    Contents.points₂ pk = Contents.points₂ pk.vk ++ pk.bPoints₂ := rfl

theorem Contents.lengths_provingKey (pk : ProvingKey G₁ G₂) : Contents.lengths pk =
    Contents.lengths pk.vk ++ [pk.aPoints.length, pk.bPoints.length, pk.bPoints₂.length,
      pk.quotientPoints.length, pk.privatePoints.length] := rfl

instance : Contents (Proof G₁ G₂) G₁ G₂ where
  points₁ proof := [proof.a, proof.c]
  points₂ proof := [proof.b]
  lengths _ := []
  digestStart _ := none

/-- Where all points are points of the group, every proof is valid. -/
theorem Contents.valid_proof [LawfulPointEncoding G₁] [LawfulPointEncoding G₂]
    (points₁ : ∀ p : G₁, Format.IsGroupPoint p) (points₂ : ∀ p : G₂, Format.IsGroupPoint p)
    (proof : Proof G₁ G₂) : Contents.Valid proof :=
  ⟨fun p _ => points₁ p, fun p _ => points₂ p, List.forall_mem_nil _⟩

namespace Format

/-- The points of a verifying key. -/
def keyPoints : Format ((((G₁ × G₂) × G₂) × G₂) × List G₁) :=
  (((point.pair point).pair point).pair point).pair points

theorem whole_point {G : Type} [PointEncoding G] : (point : Format G).Whole := fun _ _ h => h

theorem whole_points {G : Type} [PointEncoding G] : (points : Format (List G)).Whole :=
  fun _ _ h => h

theorem whole_number : number.Whole := fun _ _ h => h

theorem whole_keyPoints : (keyPoints : Format ((((G₁ × G₂) × G₂) × G₂) × List G₁)).Whole :=
  (((whole_point.pair whole_point).pair whole_point).pair whole_point).pair whole_points

/-- A verifying key is written as its points and its digest. -/
theorem image_verifyingKey : Image
    (fun p : ((((G₁ × G₂) × G₂) × G₂) × List G₁) × Digest =>
      (⟨p.1.1.1.1.1, p.1.1.1.1.2, p.1.1.1.2, p.1.1.2, p.1.2, p.2⟩ : VerifyingKey G₁ G₂))
    (keyPoints.pair digest) payload where
  write_eq p := rfl
  read_eq := by
    simp only [payload, Payload.decode, keyPoints, pair, read_point, read_points, digest, map_bind,
      map_pure, bind_assoc, pure_bind]
  splitsDigest_iff p n := by
    show (∃ start ∈ some (keyPoints.write p.1).length, start ≤ n ∧ n < start + 32) ↔
      keyPoints.splitsDigest p.1 n ∨
        (keyPoints.write p.1).length ≤ n ∧ n - (keyPoints.write p.1).length < 32
    rw [or_iff_right (whole_keyPoints _ _)]
    simp only [Option.mem_some_iff, exists_eq_left']
    omega

/-- The fields of a proving key. -/
def keyFields : Format ((((((((VerifyingKey G₁ G₂ × G₁) × G₁) × List G₁) × List G₁) × List G₂) ×
    List G₁) × List G₁) × UInt64) :=
  (((((((payload.pair point).pair point).pair points).pair points).pair points).pair
    points).pair points).pair number

/-- A proving key is written as its fields. -/
theorem image_provingKey : Image
    (fun p : (((((((VerifyingKey G₁ G₂ × G₁) × G₁) × List G₁) × List G₁) × List G₂) × List G₁) ×
        List G₁) × UInt64 =>
      (⟨p.1.1.1.1.1.1.1.1, p.1.1.1.1.1.1.1.2, p.1.1.1.1.1.1.2, p.1.1.1.1.1.2, p.1.1.1.1.2, p.1.1.1.2,
        p.1.1.2, p.1.2, p.2⟩ : ProvingKey G₁ G₂))
    keyFields payload where
  write_eq p := rfl
  read_eq := by
    simp only [payload, Payload.decode, keyFields, pair, read_point, read_points, number, map_bind,
      map_pure, bind_assoc, pure_bind, bind_map_left]
  splitsDigest_iff p n := by
    simp only [keyFields, splitsDigest_pair whole_number, splitsDigest_pair whole_points,
      splitsDigest_pair whole_point]
    rfl

/-- A proof is written as its points. -/
theorem image_proof : Image (fun p : (G₁ × G₂) × G₁ => (⟨p.1.1, p.1.2, p.2⟩ : Proof G₁ G₂))
    ((point.pair point).pair point) payload where
  write_eq p := rfl
  read_eq := by
    simp only [payload, Payload.decode, pair, read_point, map_bind, map_pure, bind_assoc, pure_bind]
  splitsDigest_iff p n :=
    iff_of_false (fun ⟨_, h, _⟩ => nomatch h) ((whole_point.pair whole_point).pair whole_point _ _)

variable [LawfulPointEncoding G₁] [LawfulPointEncoding G₂]

theorem safe_keyPoints : (keyPoints : Format ((((G₁ × G₂) × G₂) × G₂) × List G₁)).Safe :=
  (((safe_point.pair safe_point).pair safe_point).pair safe_point).pair safe_points

end Format

open Format

variable [LawfulPointEncoding G₁] [LawfulPointEncoding G₂]

/-! ## Where reading breaks a precondition -/

/-- Reading a verifying key breaks a precondition exactly if its points are read and fewer bytes are
left than a digest has. -/
theorem run_decode_verifyingKey_eq_breach {bs : Bytes} :
    (Payload.decode : Decoder (VerifyingKey G₁ G₂)).run bs = .error .breach ↔
      ∃ points rest, (keyPoints : Format ((((G₁ × G₂) × G₂) × G₂) × List G₁)).read.run bs =
        .ok (points, rest) ∧ rest.length < 32 := by
  have himage : (payload : Format (VerifyingKey G₁ G₂)).read.run bs = .error .breach ↔ _ :=
    image_verifyingKey.run_read_eq_error
  refine himage.trans (run_read_pair_eq_breach.trans ?_)
  rw [or_iff_right (safe_keyPoints bs)]
  exact exists₂_congr fun _ _ => and_congr_right fun _ => run_digest_eq_breach

/-- Reading a proving key breaks a precondition exactly if reading its verifying key does. -/
theorem run_decode_provingKey_eq_breach {bs : Bytes} :
    (Payload.decode : Decoder (ProvingKey G₁ G₂)).run bs = .error .breach ↔
      (Payload.decode : Decoder (VerifyingKey G₁ G₂)).run bs = .error .breach := by
  have himage : (payload : Format (ProvingKey G₁ G₂)).read.run bs = .error .breach ↔ _ :=
    image_provingKey.run_read_eq_error
  refine himage.trans ?_
  rw [keyFields, run_read_pair_eq_breach_iff safe_number, run_read_pair_eq_breach_iff safe_points,
    run_read_pair_eq_breach_iff safe_points, run_read_pair_eq_breach_iff safe_points,
    run_read_pair_eq_breach_iff safe_points, run_read_pair_eq_breach_iff safe_points,
    run_read_pair_eq_breach_iff safe_point, run_read_pair_eq_breach_iff safe_point]
  rfl

/-- Reading a proof never breaks a precondition. -/
theorem run_decode_proof_ne_breach (bs : Bytes) :
    (Payload.decode : Decoder (Proof G₁ G₂)).run bs ≠ .error .breach :=
  ((safe_point.pair safe_point).pair safe_point).of_image image_proof bs

/-! ## Lawful formats -/

/-- **Verifying keys have a lawful format.** -/
instance : LawfulPayload (VerifyingKey G₁ G₂) G₁ G₂ where
  lawful := by
    refine (((((lawful_point.pair lawful_point).pair lawful_point).pair lawful_point).pair
      lawful_points).pair lawful_digest).of_image image_verifyingKey ?_ ?_ ?_
    · rintro vk ⟨h₁, h₂, hsized⟩
      simp only [Contents.Sized, Contents.points₁, Contents.points₂, Contents.lengths,
        List.forall_mem_cons] at h₁ h₂ hsized
      exact ⟨(((((vk.alpha, vk.beta), vk.gamma), vk.delta), vk.instancePoints), vk.digest), rfl,
        ⟨⟨⟨⟨h₁.1, h₂.1⟩, h₂.2.1⟩, h₂.2.2.1⟩, hsized.1, h₁.2⟩, trivial⟩
    · rintro p ⟨h₁, h₂⟩
      simp only [Contents.points₁, Contents.points₂, List.forall_mem_cons] at h₁ h₂
      exact ⟨⟨⟨⟨⟨h₁.1, h₂.1⟩, h₂.2.1⟩, h₂.2.2.1⟩, h₁.2⟩, trivial⟩
    · intro vk hsized
      simp only [Contents.Sized, Contents.lengths, List.forall_mem_cons] at hsized
      exact ⟨(((((vk.alpha, vk.beta), vk.gamma), vk.delta), vk.instancePoints), vk.digest), rfl,
        ⟨⟨⟨⟨trivial, trivial⟩, trivial⟩, trivial⟩, hsized.1⟩, trivial⟩

/-- The fields of a proving key, as they are written. -/
def ProvingKey.fields (pk : ProvingKey G₁ G₂) : (((((((VerifyingKey G₁ G₂ × G₁) × G₁) × List G₁) ×
    List G₁) × List G₂) × List G₁) × List G₁) × UInt64 :=
  ((((((((pk.vk, pk.beta), pk.delta), pk.aPoints), pk.bPoints), pk.bPoints₂), pk.quotientPoints),
    pk.privatePoints), pk.domainSize)

/-- **Proving keys have a lawful format.** -/
instance : LawfulPayload (ProvingKey G₁ G₂) G₁ G₂ where
  lawful := by
    have hvk : (payload : Format (VerifyingKey G₁ G₂)).Lawful _ _ _ := LawfulPayload.lawful
    refine ((((((((hvk.pair lawful_point).pair lawful_point).pair lawful_points).pair
      lawful_points).pair lawful_points).pair lawful_points).pair lawful_points).pair
      lawful_number).of_image image_provingKey ?_ ?_ ?_
    · rintro pk ⟨h₁, h₂, hsized⟩
      simp only [Contents.points₁_provingKey, Contents.points₂_provingKey,
        Contents.lengths_provingKey, Contents.Sized, List.forall_mem_append,
        List.forall_mem_cons] at h₁ h₂ hsized
      obtain ⟨⟨⟨⟨⟨hvk₁, hbeta, hdelta, -⟩, ha⟩, hb⟩, hquotient⟩, hprivate⟩ := h₁
      obtain ⟨hvk₂, hb₂⟩ := h₂
      obtain ⟨hvkSized, haLen, hbLen, hb₂Len, hquotientLen, hprivateLen, -⟩ := hsized
      exact ⟨pk.fields, rfl, ⟨⟨⟨⟨⟨⟨⟨⟨hvk₁, hvk₂, hvkSized⟩, hbeta⟩, hdelta⟩, haLen, ha⟩, hbLen, hb⟩,
        hb₂Len, hb₂⟩, hquotientLen, hquotient⟩, hprivateLen, hprivate⟩, trivial⟩
    · rintro p ⟨h₁, h₂⟩
      simp only [Contents.points₁_provingKey, Contents.points₂_provingKey, List.forall_mem_append,
        List.forall_mem_cons] at h₁ h₂
      obtain ⟨⟨⟨⟨⟨hvk₁, hbeta, hdelta, -⟩, ha⟩, hb⟩, hquotient⟩, hprivate⟩ := h₁
      obtain ⟨hvk₂, hb₂⟩ := h₂
      exact ⟨⟨⟨⟨⟨⟨⟨⟨⟨hvk₁, hvk₂⟩, hbeta⟩, hdelta⟩, ha⟩, hb⟩, hb₂⟩, hquotient⟩, hprivate⟩, trivial⟩
    · intro pk hsized
      simp only [Contents.lengths_provingKey, Contents.Sized, List.forall_mem_append,
        List.forall_mem_cons] at hsized
      obtain ⟨hvkSized, haLen, hbLen, hb₂Len, hquotientLen, hprivateLen, -⟩ := hsized
      exact ⟨pk.fields, rfl, ⟨⟨⟨⟨⟨⟨⟨hvkSized, trivial⟩, trivial⟩, haLen⟩, hbLen⟩, hb₂Len⟩,
        hquotientLen⟩, hprivateLen⟩, trivial⟩

/-- **Proofs have a lawful format.** -/
instance : LawfulPayload (Proof G₁ G₂) G₁ G₂ where
  lawful := by
    refine ((lawful_point.pair lawful_point).pair lawful_point).of_image image_proof ?_ ?_ ?_
    · rintro proof ⟨h₁, h₂, -⟩
      simp only [Contents.points₁, Contents.points₂, List.forall_mem_cons] at h₁ h₂
      exact ⟨((proof.a, proof.b), proof.c), rfl, ⟨h₁.1, h₂.1⟩, h₁.2.1⟩
    · rintro p ⟨h₁, h₂⟩
      simp only [Contents.points₁, Contents.points₂, List.forall_mem_cons] at h₁ h₂
      exact ⟨⟨h₁.1, h₂.1⟩, h₁.2.1⟩
    · intro proof _
      exact ⟨((proof.a, proof.b), proof.c), rfl, ⟨trivial, trivial⟩, trivial⟩

end Groth16
