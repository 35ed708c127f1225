import Groth16.Proofs.Artifact.Logarithms
import Groth16.Proofs.Service.Replies

/-!
# Requests that overlap in time

A request looks at the store when it starts and enters keys, if any, when it ends; between the two,
other requests start and end, or are abandoned.  Whatever the order, the store holds nothing but
keys of setups, each under the name of its circuit, and a request works with the keys that were
there when it started.

* `ServiceState`, `ServiceEvent`, `ServiceState.step`: what happens to a service.
* `ServiceState.store_step`: what one event does to the store.
* `ServiceState.exists_start`: a reply that is not sent yet is that of a store in the past.
* `ServiceState.exists_circuit_of_find?`: the store after any events.
* `key_store_sound`: all of this together, with what it means for proofs.
-/

set_option autoImplicit false

namespace Groth16

variable {K : PrimeField} {G₁ G₂ T : Type}

/-! ## Events -/

/-- A request that has started and has not ended, with the reply that it will end with. -/
structure Flight (K : PrimeField) (G₁ G₂ T : Type) where
  /-- The request. -/
  request : Request
  /-- The reply. -/
  reply : Reply K G₁ G₂ T

/-- A service at work. -/
structure ServiceState (K : PrimeField) (G₁ G₂ T : Type) where
  /-- The keys. -/
  store : KeyStore K G₁ G₂ T
  /-- The requests that have not ended. -/
  pending : List (Flight K G₁ G₂ T)

/-- What happens to a service. -/
inductive ServiceEvent (σ : Type) where
  /-- A request starts; what it draws comes from the source. -/
  | start (request : Request) (source : σ)
  /-- The request at a position ends. -/
  | finish (i : Nat)
  /-- The request at a position is given up. -/
  | abandon (i : Nat)

namespace ServiceState

/-- A service that has just started. -/
def initial : ServiceState K G₁ G₂ T := ⟨.empty, []⟩

/-- The keys that an event enters. -/
def entryOf {σ : Type} (s : ServiceState K G₁ G₂ T) :
    ServiceEvent σ → Option (String × CircuitKeys K G₁ G₂ T)
  | .finish i => s.pending[i]?.bind (·.reply.entry)
  | .start _ _ | .abandon _ => none

section
variable [ScalarGroup K G₁] [ScalarGroup K G₂] [Pairing K G₁ G₂ T] [PointEncoding G₁]
  [PointEncoding G₂] [Workers] {σ : Type} [RandomSource σ]

/-- The service after an event. A request looks at the store when it starts, and enters its keys
when it ends. -/
def step (config : ServiceConfig) (s : ServiceState K G₁ G₂ T) :
    ServiceEvent σ → ServiceState K G₁ G₂ T
  | .start request source =>
    { s with pending := s.pending ++ [⟨request, replyTo config s.store request source⟩] }
  | .finish i =>
    match s.pending[i]? with
    | some flight => ⟨flight.reply.commit s.store, s.pending.eraseIdx i⟩
    | none => s
  | .abandon i => { s with pending := s.pending.eraseIdx i }

/-- The service after events. -/
def run (config : ServiceConfig) (s : ServiceState K G₁ G₂ T) (events : List (ServiceEvent σ)) :
    ServiceState K G₁ G₂ T :=
  events.foldl (step config) s

/-- The names under which events enter keys. -/
def entered (config : ServiceConfig) :
    ServiceState K G₁ G₂ T → List (ServiceEvent σ) → List String
  | _, [] => []
  | s, event :: events =>
    (s.entryOf event).toList.map (·.1) ++ entered config (s.step config event) events

variable {config : ServiceConfig} {s : ServiceState K G₁ G₂ T}

theorem run_cons (event : ServiceEvent σ) (events : List (ServiceEvent σ)) :
    s.run config (event :: events) = (s.step config event).run config events := rfl

theorem run_concat (events : List (ServiceEvent σ)) (event : ServiceEvent σ) :
    s.run config (events ++ [event]) = (s.run config events).step config event := by
  rw [run, List.foldl_append]
  rfl

/-! ## One event -/

/-- The store after an event. -/
theorem store_step (event : ServiceEvent σ) : (s.step config event).store =
    match s.entryOf event with
    | some (name, keys) => s.store.enter name keys
    | none => s.store := by
  cases event with
  | start request source => rfl
  | abandon i => rfl
  | finish i =>
    rw [step, entryOf]
    cases hflight : s.pending[i]? with
    | none => rfl
    | some flight => rfl

/-- What is found under a name after an event. -/
theorem find?_step (event : ServiceEvent σ) (other : String) :
    (s.step config event).store.find? other =
      match s.entryOf event with
      | some (name, keys) => if other = name then some keys else s.store.find? other
      | none => s.store.find? other := by
  rw [store_step]
  split
  · exact Dictionary.find?_insert ..
  · rfl

/-- A request that has not ended after an event has started with it or before. -/
theorem mem_pending_step {event : ServiceEvent σ} {flight : Flight K G₁ G₂ T}
    (h : flight ∈ (s.step config event).pending) : flight ∈ s.pending ∨
      ∃ source, event = .start flight.request source ∧
        flight.reply = replyTo config s.store flight.request source := by
  cases event with
  | start request source =>
    refine (List.mem_append.1 h).imp_right fun h => ?_
    rw [List.mem_singleton.1 h]
    exact ⟨source, rfl, rfl⟩
  | abandon i => exact .inl (List.mem_of_mem_eraseIdx h)
  | finish i =>
    rw [step] at h
    split at h
    · exact .inl (List.mem_of_mem_eraseIdx h)
    · exact .inl h

/-! ## All events -/

/-- **A reply that is not sent yet is that of a store in the past**: the one that was there when the
request started. -/
theorem exists_start (events : List (ServiceEvent σ)) {flight : Flight K G₁ G₂ T}
    (h : flight ∈ (s.run config events).pending) : flight ∈ s.pending ∨
      ∃ before source after, events = before ++ .start flight.request source :: after ∧
        flight.reply = replyTo config (s.run config before).store flight.request source := by
  induction events using List.reverseRecOn with
  | nil => exact .inl h
  | append_singleton events event ih =>
    rw [run_concat] at h
    rcases mem_pending_step h with h | ⟨source, rfl, hreply⟩
    · refine (ih h).imp_right ?_
      rintro ⟨before, source, after, rfl, hreply⟩
      exact ⟨before, source, after ++ [event], by simp, hreply⟩
    · exact .inr ⟨events, source, [], rfl, hreply⟩

/-- What an event enters comes from a setup that succeeds. -/
theorem exists_flight_of_entryOf [Fact K.modulus.Prime] (events : List (ServiceEvent σ))
    {event : ServiceEvent σ} {name : String} {keys : CircuitKeys K G₁ G₂ T}
    (h : (initial.run config events).entryOf event = some (name, keys)) :
    ∃ i flight, event = .finish i ∧
      (initial.run config events : ServiceState K G₁ G₂ T).pending[i]? = some flight ∧
      flight.request.Posts config "/v1/setup" setupFields (name, ()) ∧
      flight.reply.response.status = 200 ∧
      ∃ c, Circuit.find? K name = some c ∧ keys.name = name ∧ keys.FromSetup c serviceSession := by
  cases event with
  | start request source => cases h
  | abandon i => cases h
  | finish i =>
    obtain ⟨flight, hflight, hentry⟩ := Option.bind_eq_some_iff.1 h
    rcases exists_start events (List.mem_of_getElem? hflight) with
      hmem | ⟨before, source, after, -, hreply⟩
    · cases hmem
    · rw [hreply] at hentry
      obtain ⟨posts, status, hkeys⟩ := entry_replyTo hentry
      refine ⟨i, flight, rfl, hflight, posts, ?_, hkeys⟩
      rw [hreply, status]

/-- **The store after any events** holds keys of setups, each under the name of its circuit. -/
theorem exists_circuit_of_find? [Fact K.modulus.Prime] (events : List (ServiceEvent σ))
    {name : String} {keys : CircuitKeys K G₁ G₂ T}
    (h : (initial.run config events).store.find? name = some keys) :
    ∃ c, Circuit.find? K name = some c ∧ keys.name = name ∧ keys.FromSetup c serviceSession := by
  induction events using List.reverseRecOn with
  | nil => cases h
  | append_singleton events event ih =>
    rw [run_concat, find?_step] at h
    split at h
    · next other keys' hentry =>
      split at h
      · next hname =>
        subst hname
        obtain rfl := Option.some.inj h
        obtain ⟨-, -, -, -, -, -, hkeys⟩ := exists_flight_of_entryOf events hentry
        exact hkeys
      · exact ih h
    · exact ih h

/-- Where no keys are entered under a name, the same keys are found under it. -/
theorem find?_run_of_notMem {events : List (ServiceEvent σ)} {name : String}
    (h : name ∉ s.entered config events) :
    (s.run config events).store.find? name = s.store.find? name := by
  induction events generalizing s with
  | nil => rfl
  | cons event events ih =>
    rw [entered, List.mem_append, not_or] at h
    rw [run_cons, ih h.2, find?_step]
    split
    · next other keys hentry =>
      refine if_neg fun hname => h.1 ?_
      rw [hentry, hname]
      exact List.mem_singleton_self other
    · rfl

end

end ServiceState

/-! ## The key store -/

/-- A built-in circuit is said to be ready if its keys are found. -/
theorem circuitValue_ready (store : KeyStore K G₁ G₂ T) {e : Circuit.Entry K}
    (mem : e ∈ Circuit.known K) :
    ∃ ready more, circuitValue store e = .object ([("name", .text e.name),
      ("description", .text e.about), ("ready", .bool ready)] ++ more) ∧
      (ready = true ↔ ∃ keys, store.lookup e.name = .ok keys) := by
  have hfound : (Circuit.find? K e.name).isSome := by
    rw [Circuit.find?, Option.isSome_map, List.find?_isSome]
    exact ⟨e, mem, beq_self_eq_true e.name⟩
  refine ⟨_, _, rfl, ?_⟩
  simp only [KeyStore.lookup_eq_ok, hfound, true_and, Option.isSome_iff_exists]

/-- **The key store is sound under every schedule.**  Let requests start, end and be abandoned in
any order.  Then every entry holds the keys of a setup for the built-in circuit of its name, and no
event changes the store but the end of a setup that succeeded, which changes the entry of its own
circuit and no other.  A circuit is listed as ready exactly if its keys are found.

A reply with a proof holds a statement and a proof as texts, and the fields of a verification are
found in its text.  Whatever happens afterwards, the proof is accepted for the statement where the
keys of the circuit are those that were there when the proof was asked for, unless a point of it is
at infinity; and these keys are there until others are entered for this circuit. -/
theorem key_store_sound [Workers] [Fact K.modulus.Prime] [ScalarGroup K G₁] [ScalarGroup K G₂]
    [Pairing K G₁ G₂ T] [CommGroup T] [LawfulScalarGroup K G₁] [LawfulScalarGroup K G₂]
    [LawfulPairing K G₁ G₂ T] [PointEncoding G₁] [PointEncoding G₂] [LawfulPointEncoding G₁]
    [LawfulPointEncoding G₂] (points₁ : ∀ p : G₁, Format.IsGroupPoint p)
    (points₂ : ∀ p : G₂, Format.IsGroupPoint p) {σ : Type} [RandomSource σ]
    (config : ServiceConfig) (events : List (ServiceEvent σ)) {s : ServiceState K G₁ G₂ T}
    (reached : ServiceState.initial.run config events = s) :
    (∀ name keys, s.store.find? name = some keys →
      ∃ c, Circuit.find? K name = some c ∧ keys.name = name ∧ keys.FromSetup c serviceSession) ∧
    (∀ event : ServiceEvent σ, (s.step config event).store = s.store ∨
      ∃ (i : Nat) (flight : Flight K G₁ G₂ T) (name : String),
        event = .finish i ∧ s.pending[i]? = some flight ∧
        flight.request.Posts config "/v1/setup" setupFields (name, ()) ∧
        flight.reply.response.status = 200 ∧
        ∀ other ≠ name, (s.step config event).store.find? other = s.store.find? other) ∧
    (∀ flight ∈ s.pending, ∃ before source after,
      events = before ++ .start flight.request source :: after ∧ flight.reply =
        replyTo config (ServiceState.initial.run config before : ServiceState K G₁ G₂ T).store
          flight.request source) ∧
    ((∀ (request : Request) (source : σ), request.method = .get → request.path = "/v1/circuits" →
        (replyTo config s.store request source).response =
          ⟨200, .json (.list ((Circuit.known K).map (circuitValue s.store)))⟩) ∧
      ∀ e ∈ Circuit.known K, ∃ ready more, circuitValue s.store e =
          .object ([("name", .text e.name), ("description", .text e.about),
            ("ready", .bool ready)] ++ more) ∧
        (ready = true ↔ ∃ keys, s.store.lookup e.name = .ok keys)) ∧
    ∀ (request : Request) (source : σ) (circuit : String) (secret publics : Dictionary String),
      request.Posts config "/v1/prove" proofFields (circuit, secret, publics, ()) →
      (replyTo config s.store request source).response.status = 200 →
      ∃ (statement : Statement) (proof : Proof G₁ G₂) (text : String),
        statement.circuit = circuit ∧ text = Base64.encode (Artifact.encode .proof proof) ∧
        (replyTo config s.store request source).response.content =
          .json (proofValue statement text) ∧
        JsonReader.front (JsonReader.record verificationFields)
          (proofValue statement text).compact = .ok (circuit, text, statement.publics, ()) ∧
        ∀ later : List (ServiceEvent σ),
          (circuit ∉ (s.step config (.start request source)).entered config later →
            ((s.step config (.start request source)).run config later).store.lookup circuit =
              s.store.lookup circuit) ∧
          (((s.step config (.start request source)).run config later).store.lookup circuit =
              s.store.lookup circuit →
            ∀ (verification : Request) (source' : σ),
              verification.Posts config "/v1/verify" verificationFields
                (circuit, text, statement.publics, ()) →
              replyTo config ((s.step config (.start request source)).run config later).store
                verification source' = honestReply proof) := by
  subst reached
  refine ⟨fun name keys => ServiceState.exists_circuit_of_find? events, fun event => ?_,
    fun flight hflight => (ServiceState.exists_start events hflight).resolve_left List.not_mem_nil,
    ⟨fun request source method path => ?_, fun e => circuitValue_ready _⟩,
    fun request source circuit secret publics posts status => ?_⟩
  · cases hentry :
        (ServiceState.initial.run config events : ServiceState K G₁ G₂ T).entryOf event with
    | none =>
      refine .inl ?_
      rw [ServiceState.store_step, hentry]
    | some entry =>
      obtain ⟨i, flight, hevent, hflight, posts, status, -⟩ :=
        ServiceState.exists_flight_of_entryOf events hentry
      refine .inr ⟨i, flight, entry.1, hevent, hflight, posts, status, fun other hother => ?_⟩
      rw [ServiceState.find?_step, hentry]
      exact if_neg hother
  · rw [replyTo, respond, targetReply, method, path]
    rfl
  · obtain ⟨keys, proof, w, found, ⟨secret, publics, state, proved⟩, content⟩ :=
      exists_proof_of_replyTo posts status
    refine ⟨.ofWitness circuit keys.r1cs w, proof, _, rfl, rfl, content, front_proofValue ..,
      fun later => ⟨fun notEntered => ?_, fun same verification source' posts' => ?_⟩⟩
    · rw [KeyStore.lookup, ServiceState.find?_run_of_notMem notEntered]
      rfl
    · obtain ⟨c, hc, -, fromSetup⟩ :=
        ServiceState.exists_circuit_of_find? events (KeyStore.lookup_eq_ok.1 found).2
      obtain ⟨read, literals, answer⟩ :=
        fromSetup.verify_statement (Circuit.traceable_of_find? hc) proved circuit
      exact replyTo_verification posts' (same.trans found)
        (Contents.valid_proof points₁ points₂ proof) literals answer

/-! ## A schedule -/

namespace Sample

/-- The keys of circuits, for points by their logarithms. -/
abbrev Keys := CircuitKeys field (Logarithm field) (Logarithm field) (Multiplicative (Fp field))

/-- A service that takes bodies of so many bytes. -/
def service (maxBody : Nat) : ServiceConfig := ⟨none, maxBody, "sample"⟩

/-- A request that sends a body of JSON. -/
def sends (path body : String) : Request := ⟨.post, path, some "application/json", body⟩

/-- A request for the keys of a circuit. -/
def asksForKeys (circuit : String) : Request :=
  sends "/v1/setup" (JsonValue.object [("circuit", .text circuit)]).compact

/-- A request for a proof with `x = 3` and `y = 35`. -/
def asksForProof : Request :=
  sends "/v1/prove" (JsonValue.object [("circuit", .text "cubic"),
    ("secret", .object [("x", .text "3")]), ("public", .object [("y", .text "35")])]).compact

/-- A source of five secrets. -/
def setupSource : Script := ⟨[some [2], some [3], some [4], some [5], some [6]]⟩

/-- A body that is read makes a request that is read, if it is not too large. -/
theorem posts_of_front {path body : String} {n : Nat} {fields : List JsonField}
    {record : JsonField.Record fields} (plain : String.ofList (pathOf path.toList) = path)
    (small : body.utf8ByteSize ≤ n)
    (read : JsonReader.front (JsonReader.record fields) body = .ok record) :
    (sends path body).Posts (service n) path fields record := by
  have htype : (!(sends path body).contentType.any MediaType.isJson) = false := by
    show (!MediaType.isJson "application/json") = false
    decide +kernel
  have hsmall : ¬ (service n).maxBody < (sends path body).body.utf8ByteSize := Nat.not_lt.2 small
  have hread : JsonReader.front (JsonReader.record fields) (sends path body).body = .ok record :=
    read
  refine ⟨rfl, plain, ?_⟩
  rw [Request.read, htype, if_neg Bool.false_ne_true, if_neg hsmall, hread]
  rfl

/-- What is read from a request for keys. -/
theorem posts_asksForKeys {circuit : String} {n : Nat}
    (known : circuit = "cubic" ∨ circuit = "factor") (large : 100 ≤ n) :
    (asksForKeys circuit).Posts (service n) "/v1/setup" setupFields (circuit, ()) := by
  have hread : @Eq (Except JsonFault (String × Unit))
      (JsonReader.front (JsonReader.record setupFields) (asksForKeys circuit).body)
      (.ok (circuit, ())) := by
    rcases known with rfl | rfl
    · decide +kernel
    · decide +kernel
  have hsize : (asksForKeys circuit).body.utf8ByteSize ≤ 100 := by
    rcases known with rfl | rfl
    · decide +kernel
    · decide +kernel
  exact posts_of_front (by decide +kernel) (Nat.le_trans hsize large) hread

/-- What is read from the request for a proof. -/
theorem posts_asksForProof {n : Nat} (large : 100 ≤ n) :
    asksForProof.Posts (service n) "/v1/prove" proofFields
      ("cubic", .ofList [("x", "3")], .ofList [("y", "35")], ()) := by
  have hread : @Eq (Except JsonFault (String × Dictionary String × Dictionary String × Unit))
      (JsonReader.front (JsonReader.record proofFields) asksForProof.body)
      (.ok ("cubic", .ofList [("x", "3")], .ofList [("y", "35")], ())) := by decide +kernel
  have hsize : asksForProof.body.utf8ByteSize ≤ 100 := by decide +kernel
  exact posts_of_front (by decide +kernel) (Nat.le_trans hsize large) hread

/-- There are keys for the cubic circuit. -/
theorem exists_cubicKeys : ∃ keys : Keys,
    (((⟨"cubic"⟩ : SetupOrder).run none).run setupSource).1 = .ok keys := by
  have hok : (((⟨"cubic"⟩ : SetupOrder).run none :
      StateM Script (Except Refusal Keys)).run setupSource).1.isOk = true := by decide +kernel
  rcases hrun : (((⟨"cubic"⟩ : SetupOrder).run none :
      StateM Script (Except Refusal Keys)).run setupSource).1 with e | keys
  · rw [hrun] at hok
    cases hok
  · exact ⟨keys, rfl⟩

/-- The inputs of the request for a proof are assigned. -/
theorem exists_assigned_cubic {keys : Keys} (h : keys.FromSetup Circuit.cubic serviceSession) :
    ∃ z, keys.r1cs.assign (.ofList [("x", 3)]) (.ofList [("y", 35)]) = .ok z := by
  have hok : (match (CircuitKeys.compile Circuit.cubic serviceSession :
      Outcome PhaseError (R1CS field)) with
    | .ok r => (r.assign (.ofList [("x", 3)]) (.ofList [("y", 35)])).isOk
    | .error _ => false) = true := by decide +kernel
  rw [h.compiled] at hok
  dsimp only at hok
  rcases hassign : keys.r1cs.assign (.ofList [("x", 3)]) (.ofList [("y", 35)]) with e | z
  · rw [hassign] at hok
    cases hok
  · exact ⟨z, rfl⟩

/-- The points of the proof with the blinding scalars three and eight are finite. -/
theorem finite_of_cubicKeys {keys : Keys}
    (setup : (((⟨"cubic"⟩ : SetupOrder).run none).run setupSource).1 = .ok keys) {z : Witness field}
    (assigned : keys.r1cs.assign (.ofList [("x", 3)]) (.ofList [("y", 35)]) = .ok z)
    {proof : Proof (Logarithm field) (Logarithm field)}
    (hproof : proofOfWires? keys.r1cs.toConstraintSystem keys.pk z.values
      (.ofBlock field (blockOf [3])) (.ofBlock field (blockOf [8])) = some proof) :
    ¬ proof.Malformed := by
  have hfinite : (match (((⟨"cubic"⟩ : SetupOrder).run none :
      StateM Script (Except Refusal Keys)).run setupSource).1 with
    | .error _ => true
    | .ok keys => match keys.r1cs.assign (.ofList [("x", 3)]) (.ofList [("y", 35)]) with
      | .error _ => true
      | .ok z => (proofOfWires? keys.r1cs.toConstraintSystem keys.pk z.values
          (.ofBlock field (blockOf [3])) (.ofBlock field (blockOf [8]))).all
            fun proof => ¬ proof.Malformed) = true := by
    decide +kernel
  rw [setup] at hfinite
  dsimp only at hfinite
  rw [assigned] at hfinite
  dsimp only at hfinite
  rw [hproof] at hfinite
  exact of_decide_eq_true hfinite

/-- What is gathered for the request for a proof, where the circuit has keys. -/
theorem gather_cubic {store : KeyStore field (Logarithm field) (Logarithm field)
    (Multiplicative (Fp field))} {keys : Keys} (found : store.lookup "cubic" = .ok keys) :
    (⟨"cubic", .ofList [("x", "3")], .ofList [("y", "35")]⟩ : ProofOrder).gather store =
      .ok (keys, .ofList [("x", 3)], .ofList [("y", 35)]) := by
  have hsecret : literals field (.ofList [("x", "3")]) = .ok (.ofList [("x", 3)]) := by
    decide +kernel
  have hpublics : literals field (.ofList [("y", "35")]) = .ok (.ofList [("y", 35)]) := by
    decide +kernel
  exact Outcome.bind_eq_ok.2 ⟨keys, found, Outcome.bind_eq_ok.2 ⟨_, hsecret,
    Outcome.bind_eq_ok.2 ⟨_, hpublics, rfl⟩⟩⟩

end Sample

/-- Keys for the cubic circuit are set up, a proof is asked for, keys for another circuit are set up
while the proof is made, and the answer with the proof is sent back as it is and accepted. -/
theorem key_store_sound_sample :
    ∃ (config : ServiceConfig) (s later : ServiceState Sample.field (Logarithm Sample.field)
        (Logarithm Sample.field) (Multiplicative (Fp Sample.field))) (answer : JsonValue),
      ServiceState.initial.run config
        [.start (Sample.asksForKeys "cubic") Sample.setupSource, .finish 0] = s ∧
      (replyTo config s.store Sample.asksForProof Sample.source).response = ⟨200, .json answer⟩ ∧
      s.run config [.start Sample.asksForProof Sample.source,
        .start (Sample.asksForKeys "factor") Sample.setupSource, .finish 1] = later ∧
      replyTo config later.store (Sample.sends "/v1/verify" answer.compact) Sample.source =
        .json (.object [("status", .text "ok")]) := by
  obtain ⟨keys, hsetup⟩ := Sample.exists_cubicKeys
  obtain ⟨c, hc, -, fromSetup⟩ := SetupOrder.run_eq_ok hsetup
  obtain rfl : Circuit.cubic = c := Option.some.inj hc
  obtain ⟨z, assigned⟩ := Sample.exists_assigned_cubic fromSetup
  have draws : DrawsScalars (Fp.ofBlock Sample.field (blockOf [3])) (Fp.ofBlock _ (blockOf [8]))
      Sample.source ⟨[]⟩ := ⟨_, _, _, rfl, rfl, rfl, rfl⟩
  obtain ⟨proof, proved, hwires⟩ := fromSetup.runOn_prove_ok Circuit.traceable_cubic assigned draws
  have finite : ¬ (proof.a = 0 ∨ proof.b = 0 ∨ proof.c = 0) :=
    Sample.finite_of_cubicKeys hsetup assigned hwires
  obtain ⟨answer, hanswer⟩ : ∃ answer, answer =
      proofValue (.ofWitness "cubic" keys.r1cs z.publicPart)
        (Base64.encode (Artifact.encode .proof proof)) := ⟨_, rfl⟩
  obtain ⟨n, hlarge, hfits⟩ : ∃ n, 100 ≤ n ∧ answer.compact.utf8ByteSize ≤ n :=
    ⟨_, Nat.le_max_left .., Nat.le_max_right ..⟩
  have hkeys : replyTo (Sample.service n) .empty (Sample.asksForKeys "cubic") Sample.setupSource =
      ⟨⟨200, .json (keysValue keys)⟩, some ("cubic", keys)⟩ := by
    rw [replyTo_setup (Sample.posts_asksForKeys (.inl rfl) hlarge)]
    rw [setupReply_eq, Sample.service, hsetup]
  have found : (KeyStore.enter .empty "cubic" keys).lookup "cubic" = .ok keys :=
    KeyStore.lookup_eq_ok.2 ⟨rfl, by rw [KeyStore.enter, Dictionary.find?_insert, if_pos rfl]⟩
  have hproof : replyTo (Sample.service n) (KeyStore.enter .empty "cubic" keys) Sample.asksForProof
      Sample.source = .json answer := by
    rw [replyTo_proof (Sample.posts_asksForProof hlarge), hanswer]
    exact proofReply_eq (Sample.gather_cubic found) proved
  have reached : ServiceState.initial.run (Sample.service n)
      [.start (Sample.asksForKeys "cubic") Sample.setupSource, .finish 0] =
        ⟨KeyStore.enter .empty "cubic" keys, []⟩ := by
    show (⟨(replyTo (Sample.service n) .empty (Sample.asksForKeys "cubic")
      Sample.setupSource).commit .empty, []⟩ : ServiceState _ _ _ _) = _
    rw [hkeys]
    rfl
  obtain ⟨-, -, -, -, hproofs⟩ :=
    key_store_sound Logarithm.isGroupPoint Logarithm.isGroupPoint (Sample.service n) _ reached
  obtain ⟨statement, proof', text, -, htext, hcontent, hfront, hlater⟩ :=
    hproofs Sample.asksForProof Sample.source "cubic" _ _ (Sample.posts_asksForProof hlarge)
      (by rw [hproof]; rfl)
  have hvalue : answer = proofValue statement text := by
    rw [hproof] at hcontent
    exact Content.json.inj hcontent
  have hvalid := Contents.valid_proof (Logarithm.isGroupPoint (K := Sample.field))
    (Logarithm.isGroupPoint (K := Sample.field))
  obtain rfl : proof = proof' := by
    rw [hanswer, htext] at hvalue
    exact eq_of_proofValue_eq (hvalid proof) (hvalid proof') hvalue
  rw [← hvalue] at hfront
  obtain ⟨hsame, hverify⟩ :=
    hlater [.start (Sample.asksForKeys "factor") Sample.setupSource, .finish 1]
  have haccepted : (honestReply proof : Reply Sample.field (Logarithm Sample.field)
      (Logarithm Sample.field) (Multiplicative (Fp Sample.field))) =
        .json (.object [("status", .text "ok")]) := if_neg finite
  refine ⟨Sample.service n, _, _, answer, reached, ?_, rfl, ?_⟩
  · rw [hproof]
    rfl
  · rw [← haccepted]
    refine hverify (hsame ?_) _ _ (Sample.posts_of_front (by decide +kernel) hfits hfront)
    intro hmem
    have hname : "cubic" ∈ ((replyTo (Sample.service n) (KeyStore.enter .empty "cubic" keys)
        (Sample.asksForKeys "factor") Sample.setupSource).entry.toList.map (·.1) ++ []) := hmem
    rw [List.append_nil, List.mem_map] at hname
    obtain ⟨⟨name, keys'⟩, hentry, rfl⟩ := hname
    have hposts := (entry_replyTo (Option.mem_toList.1 hentry)).1
    have hread := hposts.read.symm.trans (Sample.posts_asksForKeys (.inr rfl) hlarge).read
    have hcircuit : "cubic" = "factor" := congrArg Prod.fst (Except.ok.inj hread)
    exact absurd hcircuit (by decide)

end Groth16
