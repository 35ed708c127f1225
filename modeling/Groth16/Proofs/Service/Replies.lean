import Groth16.Proofs.Artifact.Artifacts
import Groth16.Proofs.Json.RoundTrip
import Groth16.Proofs.Protocol.CircuitKeys
import Groth16.Proofs.Text.Base64
import Groth16.Service.Handler

/-!
# Replies of a service

* `replyTo`: the reply to a request, for the keys that are there when the request starts.
* `Request.Posts`: a request for one of the things that the service does.
* `entry_replyTo`: which replies enter keys, and which keys.
* `exists_proof_of_replyTo`: what is in a reply with a proof.
* `replyTo_verification`: a proof that is sent with its statement is answered as an honest one.
* `front_proofValue`: the fields of a verification are found in a reply with a proof.
-/

set_option autoImplicit false

namespace Groth16

variable {K : PrimeField} {G₁ G₂ T : Type}

/-! ## What is refused -/

theorem orRefuse_eq_ok {α : Type} {x : Outcome PhaseError α} {a : α} :
    orRefuse x = .ok a ↔ x = .ok a := by
  cases x with
  | error e => exact ⟨nofun, nofun⟩
  | ok b => simp [orRefuse, Except.mapError]

/-- Nothing that is refused is answered as if it were done. -/
theorem Refusal.status_ne (cause : Refusal) : cause.status ≠ 200 := by
  cases cause with
  | unknownCircuit name => nofun
  | noKeys name => nofun
  | proofText => nofun
  | broken => nofun
  | phase cause =>
    rw [status.eq_def]
    dsimp only
    split
    · nofun
    · cases cause with
      | compile | assign | setup | prove | verify | artifact => nofun

/-- The keys that are found are those that are entered, and the circuit is a built-in one. -/
theorem KeyStore.lookup_eq_ok {store : KeyStore K G₁ G₂ T} {name : String}
    {keys : CircuitKeys K G₁ G₂ T} : store.lookup name = .ok keys ↔
      (Circuit.find? K name).isSome ∧ store.find? name = some keys := by
  rw [lookup, knownCircuit]
  cases Circuit.find? K name with
  | none => exact ⟨nofun, nofun⟩
  | some c =>
    cases store.find? name with
    | none => exact ⟨nofun, nofun⟩
    | some keys' => simp [discard, Functor.discard, Functor.mapConst, Except.map]

/-! ## Requests -/

/-- The request sends a record to a path. -/
structure Request.Posts (request : Request) (config : ServiceConfig) (path : String)
    (fields : List JsonField) (record : JsonField.Record fields) : Prop where
  /-- It sends something. -/
  method : request.method = .post
  /-- It sends it to the path. -/
  path : request.path = path
  /-- The record is in its body. -/
  read : request.read config.maxBody fields = .ok record

section
variable {σ : Type} {config : ServiceConfig} {request : Request} {source : σ} {path : String}
  {fields : List JsonField} {record : JsonField.Record fields}
  {run : JsonField.Record fields → StateM σ (Reply K G₁ G₂ T)}

theorem Request.Posts.postReply_eq (h : request.Posts config path fields record)
    (run : JsonField.Record fields → StateM σ (Reply K G₁ G₂ T)) :
    postReply config request fields run = run record := by
  rw [postReply, h.method]
  dsimp only
  rw [h.read]

/-- What is sent is answered only if it is read. -/
theorem entry_postReply (hpath : request.path = path)
    (h : ((postReply config request fields run).run source).1.entry ≠ none) :
    ∃ record, request.Posts config path fields record ∧
      ((run record).run source).1.entry ≠ none := by
  rw [postReply] at h
  split at h
  · next hmethod =>
    split at h
    · next record hread => exact ⟨record, ⟨hmethod, hpath, hread⟩, h⟩
    · exact absurd rfl h
  · exact absurd rfl h

theorem entry_getReply (value : JsonValue) (method : Method) :
    (getReply value method : Reply K G₁ G₂ T).entry = none := by
  cases method with
  | get | head | post | options | other => rfl

end

/-! ## New keys -/

section
variable [ScalarGroup K G₁] [ScalarGroup K G₂] [Pairing K G₁ G₂ T] {σ : Type} [RandomSource σ]
  {source : σ}

/-- A setup that succeeds gives keys of the circuit that was asked for. -/
theorem SetupOrder.run_eq_ok [Fact K.modulus.Prime] {order : SetupOrder} {seed : Option UInt64}
    {keys : CircuitKeys K G₁ G₂ T} (h : ((order.run seed).run source).1 = .ok keys) :
    ∃ c, Circuit.find? K order.circuit = some c ∧ keys.name = order.circuit ∧
      keys.FromSetup c serviceSession := by
  rw [SetupOrder.run, knownCircuit] at h
  cases hfind : Circuit.find? K order.circuit with
  | none =>
    rw [hfind] at h
    cases h
  | some c =>
    rw [hfind] at h
    have hgenerated : ∀ {τ : Type} [RandomSource τ] (state : τ),
        orRefuse ((CircuitKeys.generate order.circuit c serviceSession).runOn state).1 = .ok keys →
          keys.name = order.circuit ∧ keys.FromSetup c serviceSession := fun state hrun =>
      CircuitKeys.runOn_generate_eq_ok (Prod.ext (orRefuse_eq_ok.1 hrun) rfl)
    cases seed with
    | some seed => exact ⟨c, rfl, hgenerated (ChaCha.ofSeed seed) h⟩
    | none => exact ⟨c, rfl, hgenerated source h⟩

variable [PointEncoding G₁] [PointEncoding G₂] {config : ServiceConfig}
  {store : KeyStore K G₁ G₂ T} {request : Request}

/-- The reply to a setup. -/
theorem setupReply_eq (order : SetupOrder) :
    ((setupReply config order : StateM σ (Reply K G₁ G₂ T)).run source).1 =
      match ((order.run config.devSeed).run source).1 with
      | .error e => .refused e
      | .ok keys => ⟨⟨200, .json (keysValue keys)⟩, some (order.circuit, keys)⟩ := by
  rw [setupReply, StateT.run_bind]
  rcases (order.run config.devSeed).run source with ⟨_ | _, state⟩
  · rfl
  · rfl

theorem entry_setupReply [Fact K.modulus.Prime] {order : SetupOrder} {name : String}
    {keys : CircuitKeys K G₁ G₂ T}
    (h : ((setupReply config order : StateM σ (Reply K G₁ G₂ T)).run source).1.entry =
      some (name, keys)) :
    ((setupReply config order : StateM σ (Reply K G₁ G₂ T)).run source).1.response.status = 200 ∧
      name = order.circuit ∧ ∃ c, Circuit.find? K name = some c ∧ keys.name = name ∧
        keys.FromSetup c serviceSession := by
  rw [setupReply_eq] at h ⊢
  split at h
  · cases h
  · next keys' hrun =>
    obtain ⟨rfl, rfl⟩ := Prod.mk.inj (Option.some.inj h)
    exact ⟨rfl, rfl, SetupOrder.run_eq_ok hrun⟩

omit [Pairing K G₁ G₂ T] in
theorem entry_proofReply [Workers] (order : ProofOrder) :
    ((proofReply order store).run source).1.entry = none := by
  rw [proofReply, StateT.run_bind]
  rcases (order.run store).run source with ⟨_ | _, state⟩
  · rfl
  · rfl

omit [RandomSource σ] in
theorem entry_verificationReply [Workers] (order : VerificationOrder) :
    (verificationReply order store).entry = none := by
  rw [verificationReply]
  split
  · rfl
  · rfl
  · rfl

/-- Keys are entered by setups only. -/
theorem entry_targetReply [Workers]
    (h : ((targetReply config store request).run source).1.entry ≠ none) :
    ∃ name, request.Posts config "/v1/setup" setupFields (name, ()) := by
  rw [targetReply] at h
  split at h
  · exact absurd (entry_getReply _ _) h
  · exact absurd (entry_getReply _ _) h
  · exact absurd (entry_getReply _ _) h
  · next hpath =>
    obtain ⟨⟨name, ⟨⟩⟩, hposts, -⟩ := entry_postReply hpath h
    exact ⟨name, hposts⟩
  · next hpath =>
    obtain ⟨record, -, h⟩ := entry_postReply hpath h
    exact absurd (entry_proofReply _) h
  · next hpath =>
    obtain ⟨record, -, h⟩ := entry_postReply hpath h
    exact absurd (entry_verificationReply _) h
  · exact absurd rfl h

/-- The reply to a request, for the keys that are there when the request starts. -/
def replyTo [Workers] (config : ServiceConfig) (store : KeyStore K G₁ G₂ T) (request : Request)
    (source : σ) : Reply K G₁ G₂ T :=
  ((respond config store request).run source).1

/-- A request that sends something is answered by its target. -/
theorem replyTo_of_post [Workers] (h : request.method = .post) :
    replyTo config store request source =
      ((targetReply config store request).run source).1 := by
  rw [replyTo, respond, h]
  rfl

theorem replyTo_setup [Workers] {name : String}
    (h : request.Posts config "/v1/setup" setupFields (name, ())) :
    replyTo config store request source = ((setupReply config ⟨name⟩).run source).1 := by
  rw [replyTo_of_post h.method, targetReply, h.path]
  show ((postReply _ _ _ _).run source).1 = _
  rw [h.postReply_eq]

theorem replyTo_proof [Workers] {circuit : String} {secret publics : Dictionary String}
    (h : request.Posts config "/v1/prove" proofFields (circuit, secret, publics, ())) :
    replyTo config store request source =
      ((proofReply ⟨circuit, secret, publics⟩ store).run source).1 := by
  rw [replyTo_of_post h.method, targetReply, h.path]
  show ((postReply _ _ _ _).run source).1 = _
  rw [h.postReply_eq]

/-- **Keys are entered by setups that succeed**, under the name of the circuit that was asked for,
and they are keys of this circuit. -/
theorem entry_replyTo [Workers] [Fact K.modulus.Prime] {name : String}
    {keys : CircuitKeys K G₁ G₂ T}
    (h : (replyTo config store request source).entry = some (name, keys)) :
    request.Posts config "/v1/setup" setupFields (name, ()) ∧
      (replyTo config store request source).response.status = 200 ∧
      ∃ c, Circuit.find? K name = some c ∧ keys.name = name ∧
        keys.FromSetup c serviceSession := by
  have hsame : (replyTo config store request source).entry = none ∨
      (replyTo config store request source).entry =
        ((targetReply config store request).run source).1.entry := by
    rw [replyTo, respond]
    cases request.method with
    | options => exact .inl rfl
    | get | head | post | other => exact .inr rfl
  have htarget : ((targetReply config store request).run source).1.entry ≠ none := by
    rcases hsame with hnone | hsame
    · rw [hnone] at h
      cases h
    · rw [← hsame, h]
      exact Option.some_ne_none _
  obtain ⟨name', hposts⟩ := entry_targetReply htarget
  rw [replyTo_setup hposts] at h ⊢
  obtain ⟨hstatus, rfl, hkeys⟩ := entry_setupReply h
  exact ⟨hposts, hstatus, hkeys⟩

/-! ## Proofs and verifications -/

/-- What is answered with a proof: its statement, and its artifact as a text. -/
def proofValue (statement : Statement) (text : String) : JsonValue :=
  .object (statement.members ++ [("proof_b64", .text text)])

/-- The text of a proof is read as the proof. -/
theorem proofOfText_encode [LawfulPointEncoding G₁] [LawfulPointEncoding G₂] {proof : Proof G₁ G₂}
    (valid : Contents.Valid proof) :
    VerificationOrder.proofOfText (Base64.encode (Artifact.encode .proof proof)) = .ok proof := by
  have lawful : (Format.payload : Format (Proof G₁ G₂)).Lawful _ _ _ := LawfulPayload.lawful
  have hread := lawful.read_write valid []
  rw [List.append_nil] at hread
  have hdecode : (Artifact.decode .proof (Artifact.encode .proof proof) :
      Outcome ArtifactError (Proof G₁ G₂)) = .ok proof :=
    Artifact.decode_eq_ok_iff.2 ⟨_, rfl, hread⟩
  rw [VerificationOrder.proofOfText, Base64.trim_encode, Base64.decode?_encode]
  dsimp only
  rw [hdecode]
  rfl

/-- A reply with a proof determines the proof. -/
theorem eq_of_proofValue_eq [LawfulPointEncoding G₁] [LawfulPointEncoding G₂]
    {statement statement' : Statement} {proof proof' : Proof G₁ G₂} (valid : Contents.Valid proof)
    (valid' : Contents.Valid proof')
    (h : proofValue statement (Base64.encode (Artifact.encode .proof proof)) =
      proofValue statement' (Base64.encode (Artifact.encode .proof proof'))) : proof = proof' := by
  obtain ⟨-, hlast⟩ := List.append_inj' (JsonValue.object.inj h) rfl
  have htext : Base64.encode (Artifact.encode .proof proof) =
      Base64.encode (Artifact.encode .proof proof') :=
    JsonValue.text.inj (Prod.mk.inj (List.singleton_inj.1 hlast)).2
  have hread := proofOfText_encode valid
  rw [htext, proofOfText_encode valid'] at hread
  exact (Except.ok.inj hread).symm

omit [Pairing K G₁ G₂ T] in
/-- The reply with a proof that was made. -/
theorem proofReply_eq [Workers] {order : ProofOrder} {keys : CircuitKeys K G₁ G₂ T}
    {secret publics : Assignment K} {proof : Proof G₁ G₂} {w : PublicWitness K} {state : σ}
    (gathered : order.gather store = .ok (keys, secret, publics))
    (proved : (keys.prove secret publics).runOn source = (.ok (proof, w), state)) :
    ((proofReply order store).run source).1 =
      .json (proofValue (.ofWitness order.circuit keys.r1cs w)
        (Base64.encode (Artifact.encode .proof proof))) := by
  rw [Draws.runOn] at proved
  rw [proofReply, ProofOrder.run, gathered]
  dsimp only
  rw [StateT.run_bind, StateT.run_bind, proved]
  rfl

/-- **What is in a reply with a proof**: the proof was made with the keys that the circuit had. -/
theorem exists_proof_of_replyTo [Workers] {circuit : String} {secret publics : Dictionary String}
    (posts : request.Posts config "/v1/prove" proofFields (circuit, secret, publics, ()))
    (status : (replyTo config store request source).response.status = 200) :
    ∃ keys proof w, store.lookup circuit = .ok keys ∧
      (∃ secret publics state, (keys.prove secret publics).runOn source = (.ok (proof, w), state)) ∧
      (replyTo config store request source).response.content =
        .json (proofValue (.ofWitness circuit keys.r1cs w)
          (Base64.encode (Artifact.encode .proof proof))) := by
  rw [replyTo_proof posts] at status ⊢
  rcases hgather : (⟨circuit, secret, publics⟩ : ProofOrder).gather store with e | ⟨keys, s, p⟩
  · refine absurd status ?_
    rw [proofReply, ProofOrder.run, hgather]
    exact Refusal.status_ne e
  · obtain ⟨keys', found, hrest⟩ := Outcome.bind_eq_ok.1 hgather
    obtain ⟨s', -, hrest⟩ := Outcome.bind_eq_ok.1 hrest
    obtain ⟨p', -, hrest⟩ := Outcome.bind_eq_ok.1 hrest
    cases hrest
    rcases hprove : (keys.prove s p).runOn source with ⟨e | ⟨proof, w⟩, state⟩
    · refine absurd status ?_
      rw [Draws.runOn] at hprove
      rw [proofReply, ProofOrder.run, hgather]
      dsimp only
      rw [StateT.run_bind, StateT.run_bind, hprove]
      exact Refusal.status_ne (.ofFailure e)
    · rw [proofReply_eq hgather hprove]
      exact ⟨keys, proof, w, found, ⟨s, p, state, hprove⟩, rfl⟩

/-- The reply to an honest proof: it is accepted, unless one of its points is at infinity. -/
def honestReply (proof : Proof G₁ G₂) : Reply K G₁ G₂ T :=
  if proof.a = 0 ∨ proof.b = 0 ∨ proof.c = 0 then .refused (.phase (.verify .malformedProof))
  else .json (.object [("status", .text "ok")])

/-- **A proof that is sent with its statement** is answered as an honest one, if the keys answer it
so. -/
theorem replyTo_verification [Workers] [LawfulPointEncoding G₁] [LawfulPointEncoding G₂]
    {circuit : String} {keys : CircuitKeys K G₁ G₂ T} {proof : Proof G₁ G₂}
    {publics : Dictionary String} {read : Assignment K}
    (posts : request.Posts config "/v1/verify" verificationFields
      (circuit, Base64.encode (Artifact.encode .proof proof), publics, ()))
    (found : store.lookup circuit = .ok keys) (valid : Contents.Valid proof)
    (literals : Assignment.ofLiterals publics.entries = .ok read)
    (answer : keys.verify proof read = (honestAnswer proof).mapError .verify) :
    replyTo config store request source = honestReply proof := by
  have hliterals : Groth16.literals K publics = .ok read := by
    rw [Groth16.literals, literals]
    rfl
  have hrun : (⟨circuit, Base64.encode (Artifact.encode .proof proof), publics⟩ :
      VerificationOrder).run store = orRefuse (Outcome.ofExcept (keys.verify proof read)) := by
    rw [VerificationOrder.run, found, Outcome.ok_bind, proofOfText_encode valid, Outcome.ok_bind,
      hliterals, Outcome.ok_bind]
  rw [replyTo_of_post posts.method, targetReply, posts.path]
  show ((postReply _ _ _ _).run source).1 = _
  rw [posts.postReply_eq]
  show verificationReply _ _ = _
  rw [verificationReply, hrun, answer, honestReply, honestAnswer]
  by_cases hzero : proof.a = 0 ∨ proof.b = 0 ∨ proof.c = 0
  · rw [if_pos hzero, if_pos hzero]
    rfl
  · rw [if_neg hzero, if_neg hzero]
    rfl

end

/-- The fields of a verification that were given so far. -/
def verificationGiven (circuit proof : Option String) (publics : Option (Dictionary String)) :
    JsonField.Given verificationFields :=
  (circuit, proof, publics, ())

open JsonReader in
/-- **The fields of a verification are found in a reply with a proof.** -/
theorem front_proofValue (statement : Statement) (text : String) :
    front (record verificationFields) (proofValue statement text).compact =
      .ok (statement.circuit, text, statement.publics, ()) := by
  have htext : ∀ (s : String) (cs : List Char),
      (value .text).run ((JsonValue.text s).compact.toList ++ cs) = .ok (s, cs) := by
    intro s cs
    rw [JsonValue.compact]
    exact run_text s cs
  have hcircuit : ∀ cs, (member "circuit" verificationFields (verificationGiven none none none)).run
      (':' :: (JsonValue.text statement.circuit).compact.toList ++ cs) =
        .ok (some (verificationGiven (some statement.circuit) none none), cs) := fun cs =>
    run_member_here (f := .text "circuit") (htext statement.circuit cs)
  have hpublics : ∀ cs, (member "public" verificationFields
      (verificationGiven (some statement.circuit) none none)).run
      (':' :: (literalsValue statement.publics).compact.toList ++ cs) =
        .ok (some (verificationGiven (some statement.circuit) none (some statement.publics)), cs) :=
    fun cs => run_member_there (by decide) (run_member_there (by decide)
      (run_member_here (f := .textsOrEmpty "public") (run_dictionary statement.publics cs)))
  have hproof : ∀ cs, (member "proof_b64" verificationFields
      (verificationGiven (some statement.circuit) none (some statement.publics))).run
      (':' :: (JsonValue.text text).compact.toList ++ cs) =
        .ok (some (verificationGiven (some statement.circuit) (some text)
          (some statement.publics)), cs) := fun cs =>
    run_member_there (by decide) (run_member_here (f := .text "proof_b64") (htext text cs))
  have hread : ∀ steps, 4 < steps →
      (members verificationFields steps true (verificationGiven none none none)).run
        (JsonValue.membersFrom true (statement.members ++ [("proof_b64", .text text)]) ++
          ['\x7d']) =
        .ok (verificationGiven (some statement.circuit) (some text) (some statement.publics),
          []) := by
    intro steps hsteps
    obtain ⟨n, rfl⟩ : ∃ n, steps = n + 1 + 1 + 1 + 1 + 1 := ⟨steps - 5, by omega⟩
    rw [Statement.members, List.cons_append, List.cons_append, List.cons_append, List.nil_append,
      run_members_cons (hcircuit _), run_members_cons_of_notMem (by decide),
      run_members_cons (hpublics _), run_members_cons (hproof _)]
    exact run_members_end
  exact front_record hread rfl

end Groth16
