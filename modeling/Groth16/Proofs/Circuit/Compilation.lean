import Groth16.Circuit.Compile
import Groth16.Proofs.Circuit.Programs
import Groth16.Proofs.Circuit.Replay

/-!
# What compiling yields

The definition of a circuit is a computation that may do whatever it likes with the handles that it
was handed, look at every outcome, and go on after a failure.  This file says what such a computation
can do, and that the system it leaves behind is recorded by a list of admissible operations.

* `Call`: an operation that was called, with its outcome.
* `Trace`: a run of a definition, as the calls that it makes with handles that were handed out to it.
* `Compilation`: a circuit that was compiled, with the trace of its definition.
* `R1CS.Recorded`: a system that a list of admissible operations records.
* `Compilation.exists_recorded`: what compiling yields is such a system; if all calls were
  successful, the operations are those that were called, and the results those that were given back.
-/

set_option autoImplicit false

namespace Groth16

variable {K : PrimeField}

/-! ## Definitions -/

/-- An operation that was called, and what it gave back. -/
structure Call (K : PrimeField) where
  /-- The operation. -/
  operation : Operation K
  /-- What it gave back. -/
  outcome : Outcome CompileError (Result K)

namespace Call

/-- The call was successful. -/
def Successful (c : Call K) : Prop := ∃ r, c.outcome = .ok r

/-- The wires that the call gave back. -/
def mentioned (c : Call K) : List Wire :=
  match c.outcome with
  | .ok r => r.mentioned
  | .error _ => []

end Call

/-- The handle was handed out: it is the one-wire, or known, or it comes from another compilation. -/
def Wire.HandedOut (known : List Wire) (session : Nat) (w : Wire) : Prop :=
  w = .one ∨ w ∈ known ∨ w.role ≠ .constant ∧ w.session ≠ session

/-- A run of a definition that knows some wires, from one builder to another, as the calls that it
makes.  It makes them with handles that were handed out to it, and nothing else that it does changes
the builder; asking for another input wire is in vain. -/
inductive Trace : List Wire → Builder K → List (Call K) → Builder K → Prop where
  /-- The definition is at its end. -/
  | done (known : List Wire) (b : Builder K) : Trace known b [] b
  /-- The definition calls an operation. -/
  | call {known : List Wire} {b b₁ b' : Builder K} {c : Call K} {calls : List (Call K)}
      (handedOut : ∀ a ∈ c.operation.operands, ∀ w ∈ a.wires, w.HandedOut known b.session)
      (run : Build.runOn c.operation.run b = (c.outcome, b₁))
      (rest : Trace (known ++ c.mentioned) b₁ calls b') : Trace known b (c :: calls) b'
  /-- The definition asks for an input wire. -/
  | refused {known : List Wire} {b b₁ b' : Builder K} {role : Role} {e : Failure CompileError}
      {calls : List (Call K)} (run : Build.runOn (Build.allocate role) b = (.error e, b₁))
      (rest : Trace known b₁ calls b') : Trace known b calls b'

/-- The circuit was compiled to the system, and its definition made the calls. -/
structure Compilation (c : Circuit K) (modulus : Modulus) (session : Nat) (calls : List (Call K))
    (r : R1CS K) : Prop where
  /-- Compiling the circuit gives the system. -/
  compiled : c.compile modulus session = .ok r
  /-- On the builder with the inputs, the definition makes the calls. -/
  traced : ∃ io b b', Build.runOn (Circuit.declare c.schema) (Builder.fresh K session) = (.ok io, b) ∧
    Build.runOn (c.define io) b = (.ok (), b') ∧ Trace (io.wires.map (·.2)) b calls b'

/-! ## Traces -/

/-- Every known wire is the one-wire or an allocated wire of the compilation. -/
def KnownTo (b : Builder K) (known : List Wire) : Prop :=
  ∀ w ∈ known, w = .one ∨ w.session = b.session ∧ w.index < b.numWires

/-- An operation that succeeds on handles that were handed out knows its wires. -/
theorem Operation.knows_of_owned {op : Operation K} {known : List Wire} {b : Builder K}
    (handedOut : ∀ a ∈ op.operands, ∀ w ∈ a.wires, w.HandedOut known b.session)
    (items : List (Item K)) (owned : ∀ a ∈ op.operands, Build.Owned (b.record items) a) :
    op.Knows known := by
  intro a ha w hw
  rcases handedOut a ha w hw with h | h | ⟨hrole, hsession⟩
  · exact .inl h
  · exact .inr h
  · rcases Build.owns_iff.1 (owned a ha w hw) with h | h
    · exact absurd h hrole
    · exact absurd h.1 hsession

theorem runOn_allocate_eq_error {role : Role} {b b' : Builder K} {e : Failure CompileError}
    (h : Build.runOn (Build.allocate role) b = (.error e, b')) : b' = b := by
  rw [Build.allocate] at h
  split at h
  · change Build.runOn (if b.inputsSealed then _ else _) b = _ at h
    split at h
    · rw [Build.runOn_report, Prod.mk.injEq] at h
      exact h.2.symm
    · cases h
  · rw [Build.runOn_report, Prod.mk.injEq] at h
    exact h.2.symm

/-- An input can be allocated only before the inputs are sealed, and takes the next wire. -/
theorem runOn_allocate_eq_ok {role : Role} {b b' : Builder K} {w : Wire}
    (h : Build.runOn (Build.allocate role) b = (.ok w, b')) :
    b.inputsSealed = false ∧ b' = { b with numWires := b.numWires + 1 } := by
  rw [Build.allocate] at h
  split at h
  · change Build.runOn (if b.inputsSealed then _ else _) b = _ at h
    split at h
    · cases h
    · next hsealed =>
      cases h
      exact ⟨by simpa using hsealed, rfl⟩
  · cases h

/-- **What a definition leaves behind** is what a list of admissible operations records; if all
calls were successful, it is the operations that were called, and their results. -/
theorem Trace.exists_admissible {known : List Wire} {b b' : Builder K} {calls : List (Call K)}
    (h : Trace known b calls b') :
    ∃ ops, Admissible b.session known b.numWires ops ∧
      b' = b.record (itemsOf b.session b.numWires ops) ∧
      ((∀ c ∈ calls, c.Successful) → ops = calls.map (·.operation) ∧
        (resultsOf b.session b.numWires ops).map .ok = calls.map (·.outcome)) := by
  induction h with
  | done known b => exact ⟨[], trivial, (Builder.record_nil b).symm, fun _ => ⟨rfl, rfl⟩⟩
  | @call known b b₁ b' c calls handedOut run rest ih =>
    obtain ⟨ops, hops, hb', hcalls⟩ := ih
    obtain ⟨op, outcome⟩ := c
    cases outcome with
    | ok r =>
      change Build.runOn op.run b = (.ok r, b₁) at run
      obtain ⟨accepted, owned, rfl, rfl⟩ := Operation.runOn_ok run
      refine ⟨op :: ops, ⟨accepted, op.knows_of_owned handedOut _ owned, hops⟩, ?_, fun hok => ?_⟩
      · rw [hb', Builder.record_record]
        rfl
      · obtain ⟨rfl, hresults⟩ := hcalls fun c hc => hok c (List.mem_cons_of_mem _ hc)
        refine ⟨rfl, ?_⟩
        rw [resultsOf, List.map_cons, List.map_cons, ← hresults]
        rfl
    | error e =>
      have hnot : ¬ ∀ c ∈ (⟨op, .error e⟩ :: calls : List (Call K)), c.Successful := by
        intro hok
        obtain ⟨r, hr⟩ := hok _ List.mem_cons_self
        cases hr
      have hknown : known ++ Call.mentioned ⟨op, .error e⟩ = known := List.append_nil known
      rw [hknown] at hops
      rcases Operation.runOn_error run with rfl | ⟨op', r, run', hsub⟩
      · exact ⟨ops, hops, hb', fun hok => absurd hok hnot⟩
      · -- What is left behind is what another operation records, whose result is not handed out.
        obtain ⟨accepted, owned, rfl, rfl⟩ := Operation.runOn_ok run'
        have knows := op'.knows_of_owned (fun a ha => handedOut a (hsub ha)) _ owned
        refine ⟨op' :: ops, ⟨accepted, knows, hops.mono (List.subset_append_left _ _)⟩, ?_,
          fun hok => absurd hok hnot⟩
        rw [hb', Builder.record_record]
        rfl
  | refused run rest ih =>
    obtain rfl := runOn_allocate_eq_error run
    exact ih

/-- Where the outcomes of calls are given results, every call has one of them. -/
theorem exists_result_of_outcomes {calls : List (Call K)} {results : List (Result K)}
    (h : results.map .ok = calls.map (·.outcome)) : ∀ call ∈ calls, ∃ result,
      call.outcome = .ok result ∧
        (call.operation, result) ∈ (calls.map (·.operation)).zip results := by
  induction calls generalizing results with
  | nil => simp
  | cons call calls ih =>
    cases results with
    | nil => cases h
    | cons result results =>
      rw [List.map_cons, List.map_cons, List.cons.injEq] at h
      rw [List.map_cons, List.zip_cons_cons, List.forall_mem_cons]
      refine ⟨⟨result, h.1.symm, List.mem_cons_self⟩, fun x hx => ?_⟩
      obtain ⟨y, hy, hmem⟩ := ih h.2 x hx
      exact ⟨y, hy, List.mem_cons_of_mem _ hmem⟩

/-! ## Inputs -/

/-- The wires of inputs of one role, by name, from wire `n` on. -/
def inputWires (role : Role) (session : Nat) : Nat → List String → List (String × Wire)
  | _, [] => []
  | n, name :: names => (name, ⟨n, role, session⟩) :: inputWires role session (n + 1) names

theorem runOn_allocate {role : Role} (hrole : Schema.isInputRole role = true) {b : Builder K}
    (unsealed : b.inputsSealed = false) : Build.runOn (Build.allocate role) b =
      (.ok ⟨b.numWires, role, b.session⟩, { b with numWires := b.numWires + 1 }) := by
  rw [Build.allocate, if_pos hrole]
  change Build.runOn (if b.inputsSealed then _ else _) b = _
  rw [if_neg (by simp [unsealed])]
  rfl

theorem runOn_allocateAll {role : Role} (hrole : Schema.isInputRole role = true)
    (names : List String) {b : Builder K} (unsealed : b.inputsSealed = false) :
    Build.runOn (Circuit.allocateAll role names) b =
      (.ok (inputWires role b.session b.numWires names),
        { b with numWires := b.numWires + names.length }) := by
  induction names generalizing b with
  | nil => rfl
  | cons name names ih =>
    have hrest := ih (b := { b with numWires := b.numWires + 1 }) unsealed
    rw [Circuit.allocateAll] at hrest ⊢
    rw [List.mapM_cons]
    simp only [Build.runOn_bind, runOn_allocate hrole unsealed, Build.runOn_pure, hrest, inputWires,
      List.length_cons]
    congr 2
    omega

/-- The inputs that a schema declares. -/
def Schema.inputsOf (schema : Schema) (session : Nat) : Inputs :=
  ⟨inputWires .public session 1 (schema.names .public) ++
    inputWires .secret session (1 + (schema.names .public).length) (schema.names .secret)⟩

/-- The builder with the inputs of a schema. -/
theorem runOn_declare (schema : Schema) (session : Nat) :
    Build.runOn (Circuit.declare schema) (Builder.fresh K session) = (.ok (schema.inputsOf session),
        ⟨session, 1 + (schema.names .public).length + (schema.names .secret).length, true, #[],
          #[]⟩) := by
  rw [Circuit.declare]
  have hpublic : Schema.isInputRole .public = true := rfl
  simp only [Build.runOn_bind, runOn_allocateAll (K := K) hpublic _
    (b := Builder.fresh K session) rfl]
  rw [runOn_allocateAll rfl _ rfl]
  rfl

theorem exists_of_mem_inputWires {role : Role} {session n : Nat} {names : List String}
    {e : String × Wire} (h : e ∈ inputWires role session n names) :
    ∃ k, names[k]? = some e.1 ∧ e.2 = ⟨n + k, role, session⟩ := by
  induction names generalizing n with
  | nil => cases h
  | cons name names ih =>
    rcases List.mem_cons.1 h with rfl | h
    · exact ⟨0, rfl, rfl⟩
    · obtain ⟨k, hk, he⟩ := ih h
      refine ⟨k + 1, hk, ?_⟩
      rw [he, Nat.add_assoc, Nat.add_comm 1]

theorem index_lt_of_mem_inputWires {role : Role} {session n : Nat} {names : List String} {w : Wire}
    (h : w ∈ (inputWires role session n names).map (·.2)) :
    w.index < n + names.length := by
  obtain ⟨e, he, rfl⟩ := List.mem_map.1 h
  obtain ⟨k, hk, he⟩ := exists_of_mem_inputWires he
  rw [he]
  exact Nat.add_lt_add_left (List.getElem?_eq_some_iff.1 hk).1 n

/-! ## Compiled systems -/

/-- The system is what admissible operations record on the known wires of the inputs. -/
structure R1CS.Recorded (r : R1CS K) (session : Nat) (known : List Wire)
    (ops : List (Operation K)) : Prop where
  /-- It is a system over the field. -/
  modulus : r.modulus = K.descriptor
  /-- The operations are admissible. -/
  admissible : Admissible session known r.firstInternal ops
  /-- The known wires lie before the internal wires. -/
  below : KnownBelow known r.firstInternal
  /-- The system is what they record. -/
  records : r.Records (itemsOf session r.firstInternal ops)

namespace Compilation

variable {c : Circuit K} {modulus : Modulus} {session : Nat} {calls : List (Call K)} {r : R1CS K}

/-- A circuit that compiles passed the checks, and is what its definition left behind. -/
theorem compile_eq_ok (h : c.compile modulus session = .ok r) :
    Circuit.precheck K modulus c.schema = .ok () ∧ ∃ b,
      Build.runOn (Circuit.declare c.schema >>= c.define) (Builder.fresh K session) = (.ok (), b) ∧
      r = b.finish (c.schema.names .public) (c.schema.names .secret) modulus := by
  rw [Circuit.compile] at h
  rcases hpre : Circuit.precheck K modulus c.schema with e | ⟨⟩
  · rw [hpre] at h
    cases h
  · refine ⟨rfl, ?_⟩
    rw [hpre] at h
    change (match Build.runOn (Circuit.declare c.schema >>= c.define) (Builder.fresh K session) with
      | (.ok _, b) => Except.ok _
      | (.error failure, _) => Except.error failure) = _ at h
    split at h
    · next b hb => exact ⟨b, hb, (Except.ok.inj h).symm⟩
    · cases h

/-- A circuit that passes the checks, and whose definition comes to its end, compiles. -/
theorem compile_ok {b : Builder K} (hpre : Circuit.precheck K modulus c.schema = .ok ())
    (hbuild : Build.runOn (Circuit.declare c.schema >>= c.define) (Builder.fresh K session) =
      (.ok (), b)) : c.compile modulus session =
        .ok (b.finish (c.schema.names .public) (c.schema.names .secret) modulus) := by
  rw [Circuit.compile, hpre]
  change (match Build.runOn (Circuit.declare c.schema >>= c.define) (Builder.fresh K session) with
    | (.ok _, b) => Except.ok _
    | (.error failure, _) => Except.error failure) = _
  rw [hbuild]

/-- The names of the inputs are those that the schema declares. -/
theorem names (h : Compilation c modulus session calls r) :
    r.publicNames = c.schema.names .public ∧ r.secretNames = c.schema.names .secret := by
  obtain ⟨-, b, -, rfl⟩ := compile_eq_ok h.compiled
  exact ⟨rfl, rfl⟩

/-- The internal wires come after the one-wire and the wires of the declared inputs. -/
theorem firstInternal_eq (h : Compilation c modulus session calls r) :
    r.firstInternal =
      (c.schema.names .public).length + (c.schema.names .secret).length + 1 := by
  rw [ConstraintSystem.firstInternal, ConstraintSystem.numPublic, ConstraintSystem.numSecret,
    h.names.1, h.names.2]

/-- The wires of the inputs. -/
def known (schema : Schema) (session : Nat) : List Wire :=
  (schema.inputsOf session).wires.map (·.2)

theorem known_below (schema : Schema) (session : Nat) :
    KnownBelow (known schema session)
      (1 + (schema.names .public).length + (schema.names .secret).length) := by
  refine ⟨by omega, fun w hw => ?_⟩
  rw [known, Schema.inputsOf, List.map_append, List.mem_append] at hw
  rcases hw with hw | hw
  · have := index_lt_of_mem_inputWires hw
    omega
  · have := index_lt_of_mem_inputWires hw
    omega

/-- A compiled system is what its definition leaves behind, on the builder with the inputs. -/
theorem exists_trace (h : Compilation c modulus session calls r) :
    ∃ b, r = b.finish (c.schema.names .public) (c.schema.names .secret) modulus ∧
      Trace (known c.schema session)
        ⟨session, 1 + (c.schema.names .public).length + (c.schema.names .secret).length, true, #[],
          #[]⟩ calls b := by
  obtain ⟨-, b, hbuild, rfl⟩ := compile_eq_ok h.compiled
  obtain ⟨io, b₀, b₁, hdeclare, hdefine, htrace⟩ := h.traced
  rw [Build.runOn_bind, hdeclare] at hbuild
  obtain rfl : b₁ = b := congrArg Prod.snd (hdefine.symm.trans hbuild)
  rw [runOn_declare, Prod.mk.injEq, Except.ok.injEq] at hdeclare
  obtain ⟨rfl, rfl⟩ := hdeclare
  exact ⟨b₁, rfl, htrace⟩

/-- **A compiled system is what a list of admissible operations records**; if all calls were
successful, it is the operations that were called, and their results. -/
theorem exists_recorded (h : Compilation c modulus session calls r) :
    ∃ ops, r.Recorded session (known c.schema session) ops ∧
      ((∀ call ∈ calls, call.Successful) → ops = calls.map (·.operation) ∧
        (resultsOf session r.firstInternal ops).map .ok = calls.map (·.outcome)) := by
  obtain ⟨hpre, -⟩ := compile_eq_ok h.compiled
  obtain ⟨b, rfl, htrace⟩ := h.exists_trace
  obtain ⟨ops, hops, rfl, hcalls⟩ := htrace.exists_admissible
  have hfirst : 1 + (c.schema.names .public).length + (c.schema.names .secret).length =
      (c.schema.names .public).length + (c.schema.names .secret).length + 1 := by omega
  have hbelow := known_below c.schema session
  have hmodulus : modulus = K.descriptor := by
    rw [← Modulus.isFor_iff]
    by_contra hnot
    rw [Circuit.precheck, Modulus.ensure, if_neg hnot] at hpre
    cases hpre
  rw [hfirst] at hops hcalls hbelow ⊢
  refine ⟨ops, ⟨hmodulus, hops, hbelow, ?_, ?_, ?_, hops.scoped hbelow⟩, hcalls⟩
  · exact congrArg Array.toList (Array.empty_append ..) |>.trans (List.toList_toArray ..)
  · exact congrArg Array.toList (Array.empty_append ..) |>.trans (List.toList_toArray ..)
  · rfl

end Compilation

/-! ## Circuits that are lists of operations -/

/-- The circuit that carries out a list of operations. -/
def Circuit.ofOperations (schema : Schema) (ops : List (Operation K)) : Circuit K :=
  ⟨schema, fun _ => do let _ ← Operation.runAll ops⟩

/-- The calls of operations that are all successful, where the next wire is `n`. -/
def callsOf (session : Nat) : Nat → List (Operation K) → List (Call K)
  | _, [] => []
  | n, op :: ops =>
    ⟨op, .ok (op.result session n)⟩ :: callsOf session (n + wireCount (op.items session n)) ops

theorem successful_callsOf (session n : Nat) (ops : List (Operation K)) :
    ∀ c ∈ callsOf session n ops, c.Successful := by
  induction ops generalizing n with
  | nil => simp [callsOf]
  | cons op ops ih => exact List.forall_mem_cons.2 ⟨⟨_, rfl⟩, ih _⟩

/-- Admissible operations that succeed make a trace of successful calls. -/
theorem Trace.of_runAll {known : List Wire} {b b' : Builder K} {ops : List (Operation K)}
    {results : List (Result K)} (admissible : Admissible b.session known b.numWires ops)
    (run : Build.runOn (Operation.runAll ops) b = (.ok results, b')) :
    Trace known b (callsOf b.session b.numWires ops) b' := by
  induction ops generalizing known b results with
  | nil =>
    obtain rfl : b = b' := congrArg Prod.snd run
    exact .done known b
  | cons op ops ih =>
    obtain ⟨accepted, knows, rest⟩ := admissible
    rw [Operation.runAll, Build.runOn_bind_eq_ok] at run
    obtain ⟨r, b₁, hop, hrest⟩ := run
    rw [Build.runOn_bind_eq_ok] at hrest
    obtain ⟨_, _, hrest, hpure⟩ := hrest
    obtain rfl : _ = b' := congrArg Prod.snd hpure
    obtain ⟨-, -, rfl, rfl⟩ := Operation.runOn_ok hop
    refine .call (c := ⟨op, .ok _⟩) (fun a ha w hw => ?_) hop (ih rest hrest)
    exact (knows a ha w hw).imp_right .inl

/-- A circuit that is a list of admissible operations compiles, if the operations succeed. -/
theorem Compilation.of_runAll {schema : Schema} {session : Nat} {ops : List (Operation K)}
    (valid : schema.validate = .ok ())
    (admissible : Admissible session (known schema session)
      (1 + (schema.names .public).length + (schema.names .secret).length) ops)
    (succeeds : (Build.runOn (Circuit.declare schema >>= (Circuit.ofOperations schema ops).define)
      (Builder.fresh K session)).1 = .ok ()) :
    ∃ r, Compilation (Circuit.ofOperations schema ops) K.descriptor session
      (callsOf session (1 + (schema.names .public).length + (schema.names .secret).length) ops)
      r := by
  obtain ⟨b', hb'⟩ : ∃ b', Build.runOn (Circuit.declare schema >>=
      (Circuit.ofOperations schema ops).define) (Builder.fresh K session) = (.ok (), b') :=
    ⟨_, Prod.ext succeeds rfl⟩
  refine ⟨b'.finish (schema.names .public) (schema.names .secret) K.descriptor, ?_, ?_⟩
  · have hpre : Circuit.precheck K K.descriptor schema = .ok () := by
      rw [Circuit.precheck, Modulus.ensure_descriptor, valid]
      rfl
    exact compile_ok hpre hb'
  · refine ⟨_, _, b', runOn_declare schema session, ?_, ?_⟩
    · rwa [Build.runOn_bind, runOn_declare] at hb'
    · rw [Build.runOn_bind, runOn_declare] at hb'
      obtain ⟨results, _, hrun, hpure⟩ := Build.runOn_bind_eq_ok.1 hb'
      obtain rfl : _ = b' := congrArg Prod.snd hpure
      exact Trace.of_runAll (b := ⟨session, _, true, #[], #[]⟩) admissible hrun

end Groth16
