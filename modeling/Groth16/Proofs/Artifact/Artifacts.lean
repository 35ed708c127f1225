import Groth16.Artifact.Frame
import Groth16.Proofs.Artifact.Payloads
import Groth16.Proofs.Curve.Bn254.Encoding

/-!
# Artifacts are read back, and nothing else is

* `openHeader_header`, `eq_of_openHeader`: a header tells the kind, and there is one for each.
* `decode_eq_ok_iff`, `decode_eq_breach_iff`: reading an artifact is reading its payload.
* `artifacts_round_trip`: writing and reading are inverse to each other, up to the coordinates of
  points at infinity.
* `artifacts_load_or_report`: what is read from less than an artifact, and where reading breaks a
  precondition.
-/

set_option autoImplicit false

namespace Groth16

open Bn254

/-! ## Values of a kind -/

section
variable (G₁ G₂ : Type)

/-- The values that artifacts of a kind hold. -/
def ArtifactKind.Value : ArtifactKind → Type
  | .provingKey => ProvingKey G₁ G₂
  | .verifyingKey => VerifyingKey G₁ G₂
  | .proof => Proof G₁ G₂

end

variable {G₁ G₂ : Type} [PointEncoding G₁] [PointEncoding G₂]

instance (kind : ArtifactKind) : Payload (kind.Value G₁ G₂) :=
  match kind with
  | .provingKey => inferInstanceAs (Payload (ProvingKey G₁ G₂))
  | .verifyingKey => inferInstanceAs (Payload (VerifyingKey G₁ G₂))
  | .proof => inferInstanceAs (Payload (Proof G₁ G₂))

instance (kind : ArtifactKind) : Contents (kind.Value G₁ G₂) G₁ G₂ :=
  match kind with
  | .provingKey => inferInstanceAs (Contents (ProvingKey G₁ G₂) G₁ G₂)
  | .verifyingKey => inferInstanceAs (Contents (VerifyingKey G₁ G₂) G₁ G₂)
  | .proof => inferInstanceAs (Contents (Proof G₁ G₂) G₁ G₂)

instance [LawfulPointEncoding G₁] [LawfulPointEncoding G₂] (kind : ArtifactKind) :
    LawfulPayload (kind.Value G₁ G₂) G₁ G₂ :=
  match kind with
  | .provingKey => inferInstanceAs (LawfulPayload (ProvingKey G₁ G₂) G₁ G₂)
  | .verifyingKey => inferInstanceAs (LawfulPayload (VerifyingKey G₁ G₂) G₁ G₂)
  | .proof => inferInstanceAs (LawfulPayload (Proof G₁ G₂) G₁ G₂)

namespace Artifact

/-! ## Headers -/

theorem magic_eq : magic = [90, 75, 82, 49, 67, 83, 118, 49] := by decide +kernel

theorem length_header (kind : ArtifactKind) : (header kind).length = headerLength := by
  rw [header, magic_eq]
  rfl

theorem code_injective {kind kind' : ArtifactKind} (h : kind.code = kind'.code) : kind = kind' := by
  cases kind <;> cases kind' <;> first | rfl | exact absurd h (by decide)

/-- The conditions that a header is checked for. -/
theorem openHeader_eq (kind : ArtifactKind) (bs : Bytes) : openHeader kind bs =
    if bs.length < headerLength then .error .truncated
    else if bs.take 8 ≠ magic then .error .badMagic
    else if Bytes.ofBigEndian ((bs.drop 8).take 2) ≠ version then
      .error (.version (Bytes.ofBigEndian ((bs.drop 8).take 2)))
    else if (bs.drop 10).headD 0 ≠ kind.code then .error (.kind kind ((bs.drop 10).headD 0))
    else .ok (bs.drop headerLength) := by
  unfold openHeader
  dsimp only
  by_cases hlength : bs.length < headerLength
  · rw [if_pos hlength, if_pos hlength]
    rfl
  rw [if_neg hlength, if_neg hlength]
  by_cases hmagic : bs.take 8 ≠ magic
  · rw [if_pos hmagic, if_pos hmagic]
    rfl
  rw [if_neg hmagic, if_neg hmagic]
  by_cases hversion : Bytes.ofBigEndian ((bs.drop 8).take 2) ≠ version
  · rw [if_pos hversion, if_pos hversion]
    rfl
  rw [if_neg hversion, if_neg hversion]
  by_cases hcode : (bs.drop 10).headD 0 ≠ kind.code
  · rw [if_pos hcode, if_pos hcode]
    rfl
  · rw [if_neg hcode, if_neg hcode]
    rfl

/-- Behind the header of another kind, an artifact is refused; behind its own, the payload follows. -/
theorem openHeader_header (kind kind' : ArtifactKind) (body : Bytes) :
    openHeader kind' (header kind ++ body) =
      if kind = kind' then .ok body else .error (.kind kind' kind.code) := by
  -- The parts of the header, each where it is looked for.
  have hmagic : magic.length = 8 := by
    rw [magic_eq]
    rfl
  have hparts : header kind ++ body = magic ++ (0 :: 1 :: kind.code :: body) := by
    rw [header, List.append_assoc, List.append_assoc]
    rfl
  have hlength : ¬ (header kind ++ body).length < headerLength := by
    rw [List.length_append, length_header]
    omega
  have htake : (header kind ++ body).take 8 = magic := by
    rw [hparts, ← hmagic, List.take_left]
  have hdrop : ∀ n, (header kind ++ body).drop (8 + n) =
      (0 :: 1 :: kind.code :: body : Bytes).drop n := by
    intro n
    rw [hparts, ← hmagic, List.drop_length_add_append]
  rw [openHeader_eq, if_neg hlength, if_neg (not_not.2 htake), hdrop 0]
  have hversion : Bytes.ofBigEndian ((0 :: 1 :: kind.code :: body : Bytes).take 2) = version := rfl
  rw [List.drop_zero, if_neg (not_not.2 hversion), hdrop 2]
  show (if kind.code ≠ kind'.code then Except.error (ArtifactError.kind kind' kind.code)
    else .ok ((header kind ++ body).drop (8 + 3))) = _
  rw [hdrop 3]
  by_cases heq : kind = kind'
  · rw [if_neg (not_not.2 (congrArg _ heq)), if_pos heq]
    rfl
  · rw [if_pos fun h => heq (code_injective h), if_neg heq]

theorem exists_three {bs : Bytes} (h : 3 ≤ bs.length) : ∃ a b c rest, bs = a :: b :: c :: rest :=
  match bs, h with
  | a :: b :: c :: rest, _ => ⟨a, b, c, rest, rfl⟩

/-- A header that is accepted is the one of the kind. -/
theorem eq_of_openHeader {kind : ArtifactKind} {bs body : Bytes}
    (h : openHeader kind bs = .ok body) : bs = header kind ++ body := by
  rw [openHeader_eq] at h
  split_ifs at h with hlength hmagic hversion hcode
  rw [not_not] at hmagic hversion hcode
  obtain rfl := Except.ok.inj h
  have hlong : 3 ≤ (bs.drop 8).length := by
    have hlength : ¬ bs.length < 11 := hlength
    rw [List.length_drop]
    omega
  -- Three bytes follow the text: the version and the kind.
  obtain ⟨a, b, c, rest, hrest⟩ := exists_three hlong
  have hdrop : ∀ n, bs.drop (8 + n) = (a :: b :: c :: rest).drop n := by
    intro n
    rw [← hrest, List.drop_drop]
  rw [hrest] at hversion
  rw [hdrop 2] at hcode
  have hnumber : 256 * (256 * 0 + a.toNat) + b.toNat = 1 := hversion
  have ha : a = 0 := UInt8.toNat_inj.1 (show a.toNat = 0 by omega)
  have hb : b = 1 := UInt8.toNat_inj.1 (show b.toNat = 1 by omega)
  have hc : c = kind.code := hcode
  calc bs = bs.take 8 ++ bs.drop 8 := (List.take_append_drop 8 bs).symm
    _ = magic ++ (0 :: 1 :: kind.code :: rest) := by rw [hmagic, hrest, ha, hb, hc]
    _ = header kind ++ rest := by
      rw [header, List.append_assoc, List.append_assoc]
      rfl
    _ = header kind ++ bs.drop headerLength := by
      show _ = header kind ++ bs.drop (8 + 3)
      rw [hdrop 3]
      rfl

theorem openHeader_short {kind : ArtifactKind} {bs : Bytes} (h : bs.length < headerLength) :
    openHeader kind bs = .error .truncated := by
  rw [openHeader_eq, if_pos h]

/-! ## Reading artifacts -/

section
variable {α : Type} [Payload α]

theorem decodePayload_eq (bs : Bytes) : (decodePayload bs : Outcome ArtifactError α) =
    match (Payload.decode : Decoder α).run bs with
    | .ok (v, rest) => if rest.isEmpty then .ok v else .report (.trailingBytes rest.length)
    | .error (.reported e) => .report (.payload e)
    | .error .breach => .breach := by
  unfold decodePayload
  rcases (Payload.decode : Decoder α).run bs with (e | _) | ⟨v, rest⟩
  · rfl
  · rfl
  · rfl

theorem decode_of_openHeader {kind : ArtifactKind} {bs body : Bytes}
    (h : openHeader kind bs = .ok body) :
    (decode kind bs : Outcome ArtifactError α) = decodePayload body := by
  rw [decode, h]
  rfl

theorem decode_of_openHeader_error {kind : ArtifactKind} {bs : Bytes} {e : ArtifactError}
    (h : openHeader kind bs = .error e) :
    (decode kind bs : Outcome ArtifactError α) = .report e := by
  rw [decode, h]
  rfl

/-- The payload behind the header is read. -/
theorem decode_header (kind : ArtifactKind) (body : Bytes) :
    (decode kind (header kind ++ body) : Outcome ArtifactError α) = decodePayload body :=
  decode_of_openHeader (by rw [openHeader_header, if_pos rfl])

/-- Bytes without the header are reported, and behind it the payload is read. -/
theorem decode_cases (kind : ArtifactKind) (bs : Bytes) :
    (∃ e, (decode kind bs : Outcome ArtifactError α) = .report e) ∨
      ∃ body, bs = header kind ++ body ∧
        (decode kind bs : Outcome ArtifactError α) = decodePayload body := by
  rcases hopen : openHeader kind bs with e | body
  · exact .inl ⟨e, decode_of_openHeader_error hopen⟩
  · exact .inr ⟨body, eq_of_openHeader hopen, decode_of_openHeader hopen⟩

/-- An artifact is a header and a payload. -/
theorem decode_eq_ok_iff {kind : ArtifactKind} {bs : Bytes} {v : α} :
    decode kind bs = .ok v ↔ ∃ body, bs = header kind ++ body ∧
      (Payload.decode : Decoder α).run body = .ok (v, []) := by
  constructor
  · intro h
    rcases decode_cases (α := α) kind bs with ⟨e, he⟩ | ⟨body, hbs, hbody⟩
    · rw [he] at h
      cases h
    · rw [hbody, decodePayload_eq] at h
      refine ⟨body, hbs, ?_⟩
      split at h
      · next v' rest hrun =>
        split_ifs at h with hempty
        · cases h
          rw [hrun, List.isEmpty_iff.1 hempty]
        · cases h
      · cases h
      · cases h
  · rintro ⟨body, rfl, hrun⟩
    rw [decode_header, decodePayload_eq, hrun]
    rfl

/-- Reading an artifact breaks a precondition exactly if reading its payload does. -/
theorem decode_eq_breach_iff {kind : ArtifactKind} {bs : Bytes} :
    (decode kind bs : Outcome ArtifactError α) = .breach ↔ ∃ body, bs = header kind ++ body ∧
      (Payload.decode : Decoder α).run body = .error .breach := by
  constructor
  · intro h
    rcases decode_cases (α := α) kind bs with ⟨e, he⟩ | ⟨body, hbs, hbody⟩
    · rw [he] at h
      cases h
    · rw [hbody, decodePayload_eq] at h
      refine ⟨body, hbs, ?_⟩
      split at h
      · split_ifs at h
        · cases h
        · cases h
      · cases h
      · next hrun => exact hrun
  · rintro ⟨body, rfl, hrun⟩
    rw [decode_header, decodePayload_eq, hrun]

end

/-- Reading a payload breaks a precondition exactly if it holds a digest, the points before it are
read, and fewer bytes are left than it has. -/
theorem run_decode_eq_breach [LawfulPointEncoding G₁] [LawfulPointEncoding G₂] (kind : ArtifactKind)
    {body : Bytes} : (Payload.decode : Decoder (kind.Value G₁ G₂)).run body = .error .breach ↔
      kind ≠ .proof ∧ ∃ points rest,
        (Format.keyPoints : Format ((((G₁ × G₂) × G₂) × G₂) × List G₁)).read.run body =
          .ok (points, rest) ∧ rest.length < 32 := by
  cases kind with
  | provingKey =>
    rw [and_iff_right (by decide)]
    exact run_decode_provingKey_eq_breach.trans run_decode_verifyingKey_eq_breach
  | verifyingKey =>
    rw [and_iff_right (by decide)]
    exact run_decode_verifyingKey_eq_breach
  | proof => exact iff_of_false (run_decode_proof_ne_breach body) fun h => h.1 rfl

/-! ## Writing and reading -/

/-- **Writing and reading are inverse to each other.**  What is written for a value of points of the
groups is read back; as an artifact of another kind it is refused, and so it is with bytes behind it;
and what is read as a value without points at infinity was written for it. -/
theorem artifacts_round_trip (kind : ArtifactKind) :
    (∀ v : kind.Value G1 G2, Contents.Valid v →
      decode kind (encode kind v) = .ok v ∧
      (∀ kind' ≠ kind, (decode kind' (encode kind v) : Outcome ArtifactError (kind'.Value G1 G2)) =
        .report (.kind kind' kind.code)) ∧
      ∀ t ≠ [], (decode kind (encode kind v ++ t) : Outcome ArtifactError (kind.Value G1 G2)) =
        .report (.trailingBytes t.length)) ∧
    ∀ (bs : Bytes) (v : kind.Value G1 G2), decode kind bs = .ok v → Contents.Finite v →
      encode kind v = bs := by
  have lawful : (Format.payload : Format (kind.Value G1 G2)).Lawful _ _ _ := LawfulPayload.lawful
  constructor
  · intro v hv
    refine ⟨?_, ?_, ?_⟩
    · have hrun := lawful.read_write hv []
      rw [List.append_nil] at hrun
      exact decode_eq_ok_iff.2 ⟨_, rfl, hrun⟩
    · intro kind' hne
      refine decode_of_openHeader_error ?_
      rw [encode, openHeader_header, if_neg (Ne.symm hne)]
    · intro t ht
      have hrun : (Payload.decode : Decoder (kind.Value G1 G2)).run (Payload.encode v ++ t) = _ :=
        lawful.read_write hv t
      have hempty : ¬ t.isEmpty := fun h => ht (List.isEmpty_iff.1 h)
      rw [encode, List.append_assoc, decode_header, decodePayload_eq, hrun]
      exact if_neg hempty
  · intro bs v h hfinite
    obtain ⟨body, rfl, hrun⟩ := decode_eq_ok_iff.1 h
    have hwrite : body = Payload.encode v ++ [] := lawful.eq_write hrun hfinite
    rw [encode, hwrite, List.append_nil]

end Artifact

/-- A verifying key of generators. -/
def Sample.key : ArtifactKind.verifyingKey.Value G1 G2 where
  alpha := generator1
  beta := generator2
  gamma := generator2
  delta := generator2
  instancePoints := [generator1]
  digest := ⟨List.replicate 32 0, rfl⟩

theorem Sample.isGroupPoint_generator1 : Format.IsGroupPoint generator1 :=
  ⟨show generator1.point.OnCurve b1 by decide, rfl⟩

theorem Sample.isGroupPoint_generator2 : Format.IsGroupPoint generator2 :=
  ⟨show generator2.point.OnCurve b2 by decide +kernel, by decide +kernel⟩

theorem Sample.valid_key : Contents.Valid Sample.key where
  points₁ := by
    show ∀ p ∈ [generator1, generator1], Format.IsGroupPoint p
    simp only [List.forall_mem_cons]
    exact ⟨isGroupPoint_generator1, isGroupPoint_generator1, List.forall_mem_nil _⟩
  points₂ := by
    show ∀ p ∈ [generator2, generator2, generator2], Format.IsGroupPoint p
    simp only [List.forall_mem_cons]
    exact ⟨isGroupPoint_generator2, isGroupPoint_generator2, isGroupPoint_generator2,
      List.forall_mem_nil _⟩
  sized := by
    show ∀ n ∈ [1], n < 256 ^ 8
    decide

theorem Sample.finite_key : Contents.Finite Sample.key where
  points₁ := by
    show ∀ p ∈ [generator1, generator1], p.point ≠ .infinity
    decide
  points₂ := by
    show ∀ p ∈ [generator2, generator2, generator2], p.point ≠ .infinity
    decide

namespace Artifact

theorem artifacts_round_trip_sample :
    decode .verifyingKey (encode .verifyingKey Sample.key) = .ok Sample.key ∧
    (decode .proof (encode .verifyingKey Sample.key) : Outcome ArtifactError (Proof G1 G2)) =
      .report (.kind .proof 2) ∧
    (decode .verifyingKey (encode .verifyingKey Sample.key ++ [7]) :
      Outcome ArtifactError (VerifyingKey G1 G2)) = .report (.trailingBytes 1) ∧
    ∀ bs, decode .verifyingKey bs = .ok Sample.key → encode .verifyingKey Sample.key = bs := by
  obtain ⟨hwrite, hread⟩ := artifacts_round_trip .verifyingKey
  obtain ⟨hback, hkind, htrailing⟩ := hwrite Sample.key Sample.valid_key
  exact ⟨hback, hkind .proof (by decide), htrailing [7] (by decide),
    fun bs hbs => hread bs Sample.key hbs Sample.finite_key⟩

/-! ## Loading parts of artifacts -/

/-- A part of an artifact that has a header has a part of the payload. -/
theorem cut_encode {α : Type} [Payload α] {kind : ArtifactKind} {v : α} {s t : Bytes}
    (eq : s ++ t = encode kind v) (ne : t ≠ []) (long : headerLength ≤ s.length) :
    ∃ s', s = header kind ++ s' ∧ s' ++ t = Payload.encode v ∧
      s.length - headerLength = s'.length := by
  rcases Format.cut_append eq ne with ⟨t', -, -, hlt⟩ | ⟨s', hs, ht, hlen⟩
  · rw [length_header] at hlt
    exact absurd hlt (Nat.not_lt.2 long)
  · rw [length_header] at hlen
    exact ⟨s', hs, ht, hlen⟩

/-- **Bytes that are not an artifact are reported, unless they end inside of a digest.**  Reading
breaks a precondition exactly where the points before a digest are read and fewer bytes are left than
it has; and so it does with an artifact that is cut there.  Cut anywhere else, it is reported. -/
theorem artifacts_load_or_report (kind : ArtifactKind) :
    (∀ bs, (decode kind bs : Outcome ArtifactError (kind.Value G1 G2)) = .breach ↔
      kind ≠ .proof ∧ ∃ body points rest, bs = header kind ++ body ∧
        (Format.keyPoints : Format ((((G1 × G2) × G2) × G2) × List G1)).read.run body =
          .ok (points, rest) ∧ rest.length < 32) ∧
    ∀ v : kind.Value G1 G2, Contents.Sized v → ∀ s t, s ++ t = encode kind v → t ≠ [] →
      (s.length < headerLength →
        (decode kind s : Outcome ArtifactError (kind.Value G1 G2)) = .report .truncated) ∧
      (headerLength ≤ s.length → ¬ Contents.SplitsDigest v (s.length - headerLength) →
        (∃ e, (decode kind s : Outcome ArtifactError (kind.Value G1 G2)) = .report (.payload e)) ∧
        (Contents.Valid v → (decode kind s : Outcome ArtifactError (kind.Value G1 G2)) =
          .report (.payload .unexpectedEnd))) ∧
      (headerLength ≤ s.length → Contents.SplitsDigest v (s.length - headerLength) →
        Contents.Valid v →
          (decode kind s : Outcome ArtifactError (kind.Value G1 G2)) = .breach) := by
  have lawful : (Format.payload : Format (kind.Value G1 G2)).Lawful _ _ _ := LawfulPayload.lawful
  constructor
  · intro bs
    rw [decode_eq_breach_iff]
    constructor
    · rintro ⟨body, rfl, hrun⟩
      obtain ⟨hkind, points, rest, hpoints, hlt⟩ := (run_decode_eq_breach kind).1 hrun
      exact ⟨hkind, body, points, rest, rfl, hpoints, hlt⟩
    · rintro ⟨hkind, body, points, rest, rfl, hpoints, hlt⟩
      exact ⟨body, rfl, (run_decode_eq_breach kind).2 ⟨hkind, points, rest, hpoints, hlt⟩⟩
  · intro v hsized s t eq ne
    refine ⟨fun hshort => decode_of_openHeader_error (openHeader_short hshort), ?_, ?_⟩
    · intro hlong hwhole
      obtain ⟨s', rfl, hpayload, hlen⟩ := cut_encode eq ne hlong
      rw [hlen] at hwhole
      rw [decode_header, decodePayload_eq]
      constructor
      · obtain ⟨e, he⟩ := (lawful.fails hsized hpayload ne).resolve_right fun h => hwhole h.2
        have hrun : (Payload.decode : Decoder (kind.Value G1 G2)).run s' = _ := he
        exact ⟨e, by rw [hrun]⟩
      · intro hv
        have hrun : (Payload.decode : Decoder (kind.Value G1 G2)).run s' = _ :=
          (lawful.misses hv hpayload ne).2 hwhole
        rw [hrun]
    · intro hlong hsplits hv
      obtain ⟨s', rfl, hpayload, hlen⟩ := cut_encode eq ne hlong
      rw [hlen] at hsplits
      have hrun : (Payload.decode : Decoder (kind.Value G1 G2)).run s' = _ :=
        (lawful.misses hv hpayload ne).1 hsplits
      rw [decode_header, decodePayload_eq, hrun]

theorem artifacts_load_or_report_sample :
    (decode .verifyingKey ((encode .verifyingKey Sample.key).take 5) :
      Outcome ArtifactError (VerifyingKey G1 G2)) = .report .truncated ∧
    (decode .verifyingKey ((encode .verifyingKey Sample.key).take 100) :
      Outcome ArtifactError (VerifyingKey G1 G2)) = .report (.payload .unexpectedEnd) ∧
    (decode .verifyingKey ((encode .verifyingKey Sample.key).take 300) :
      Outcome ArtifactError (VerifyingKey G1 G2)) = .breach := by
  have hcut : ∀ n < 307, ((encode .verifyingKey Sample.key).take n).length = n ∧
      (encode .verifyingKey Sample.key).drop n ≠ [] := by
    have length : (encode .verifyingKey Sample.key).length = 307 := by decide +kernel
    intro n hn
    refine ⟨?_, fun h => ?_⟩
    · rw [List.length_take, length]
      omega
    · have hdrop := congrArg List.length h
      rw [List.length_drop, length, List.length_nil] at hdrop
      omega
  have hsplits : ∀ n, Contents.SplitsDigest Sample.key n ↔ 264 ≤ n ∧ n < 296 := by
    have hstart : Contents.digestStart Sample.key = some 264 := by decide +kernel
    intro n
    unfold Contents.SplitsDigest
    rw [hstart]
    simp
  have hload := (artifacts_load_or_report .verifyingKey).2 Sample.key Sample.valid_key.sized
  refine ⟨?_, ?_, ?_⟩
  · obtain ⟨hlength, hrest⟩ := hcut 5 (by decide)
    refine (hload _ _ (List.take_append_drop _ _) hrest).1 ?_
    rw [hlength]
    decide
  · obtain ⟨hlength, hrest⟩ := hcut 100 (by decide)
    refine ((hload _ _ (List.take_append_drop _ _) hrest).2.1 ?_ ?_).2 Sample.valid_key
    · rw [hlength]
      decide
    · rw [hlength, hsplits]
      decide
  · obtain ⟨hlength, hrest⟩ := hcut 300 (by decide)
    refine (hload _ _ (List.take_append_drop _ _) hrest).2.2 ?_ ?_ Sample.valid_key
    · rw [hlength]
      decide
    · rw [hlength, hsplits]
      decide

/-- A verifying key of points at infinity. -/
def Sample.zeroKey : ArtifactKind.verifyingKey.Value G1 G2 where
  alpha := ⟨.infinity⟩
  beta := ⟨.infinity⟩
  gamma := ⟨.infinity⟩
  delta := ⟨.infinity⟩
  instancePoints := []
  digest := ⟨List.replicate 32 0, rfl⟩

/-- The bytes of the key without its digest. -/
def Sample.zeroKeyCut : Bytes :=
  header .verifyingKey ++ (List.replicate 31 0 ++ [64]) ++ (List.replicate 63 0 ++ [64]) ++
    (List.replicate 63 0 ++ [64]) ++ (List.replicate 63 0 ++ [64]) ++ List.replicate 8 0

/-- An artifact that is cut before its digest is not reported. -/
theorem cut_before_digest_breaks : Contents.Valid Sample.zeroKey ∧
    Sample.zeroKeyCut ++ List.replicate 32 0 = encode .verifyingKey Sample.zeroKey ∧
    (decode .verifyingKey Sample.zeroKeyCut : Outcome ArtifactError (VerifyingKey G1 G2)) =
      .breach := by
  have h₁ : Format.IsGroupPoint (⟨.infinity⟩ : G1) := ⟨trivial, rfl⟩
  have h₂ : Format.IsGroupPoint (⟨.infinity⟩ : G2) := ⟨trivial, by decide +kernel⟩
  refine ⟨⟨?_, ?_, ?_⟩, ?_, ?_⟩
  · show ∀ p ∈ [(⟨.infinity⟩ : G1)], Format.IsGroupPoint p
    exact List.forall_mem_singleton.2 h₁
  · show ∀ p ∈ [(⟨.infinity⟩ : G2), ⟨.infinity⟩, ⟨.infinity⟩], Format.IsGroupPoint p
    simp only [List.forall_mem_cons]
    exact ⟨h₂, h₂, h₂, List.forall_mem_nil _⟩
  · show ∀ n ∈ [0], n < 256 ^ 8
    decide
  · decide +kernel
  · decide +kernel

end Artifact

end Groth16
