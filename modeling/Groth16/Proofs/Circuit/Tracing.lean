import Groth16.Circuit.Known
import Groth16.Proofs.Circuit.Compilation

/-!
# Circuits that make nothing but calls

What is known of a compiled circuit rests on the trace of its definition.  This file finds the
trace of a definition from its text: a computation is `Traced` if it makes nothing but calls, with
handles that it was handed out, and that holds of sequences of such computations.  It is not enough
that the computations of a sequence are traced one by one: the later ones use what the earlier ones
gave back.

* `Build.Traced`: a computation whose runs go in front of a trace.
* `Build.Traced.of_operation`: an operation is traced.
* `Circuit.Traceable.exists_compilation`: where the definition is traced, compiling is a
  `Compilation`.
* `Circuit.traceable_known`: the built-in circuits are traceable.
-/

set_option autoImplicit false

namespace Groth16

open LinearCombination (ofWire)

variable {K : PrimeField} {α β : Type}

theorem Wire.HandedOut.mono {known known' : List Wire} {session : Nat} {w : Wire}
    (h : w.HandedOut known session) (sub : known ⊆ known') : w.HandedOut known' session :=
  h.imp_right (Or.imp_left fun hw => sub hw)

/-- A definition that knows more wires can make the same calls. -/
theorem Trace.mono {known known' : List Wire} {b b' : Builder K} {calls : List (Call K)}
    (h : Trace known b calls b') (sub : known ⊆ known') : Trace known' b calls b' := by
  induction h generalizing known' with
  | done known b => exact .done known' b
  | call handedOut run _ ih =>
    exact .call (fun a ha w hw => (handedOut a ha w hw).mono sub) run
      (ih (List.append_subset.2 ⟨fun w hw => List.mem_append_left _ (sub hw),
        List.subset_append_right _ _⟩))
  | refused run _ ih => exact .refused run (ih sub)

/-! ## Traced computations -/

namespace Build

/-- The computation knows some wires, makes nothing but calls with them, and has been handed out the
wires `given a` when it ends with `a`.  So its run goes in front of the trace of what follows. -/
structure Traced (known : List Wire) (x : Build K α) (given : α → List Wire) : Prop where
  /-- The calls of a run stand in front of those of what follows. -/
  exists_calls : ∀ {b b₁ : Builder K} {a : α}, runOn x b = (.ok a, b₁) →
    ∃ calls, ∀ {rest : List (Call K)} {b' : Builder K}, Trace (known ++ given a) b₁ rest b' →
      Trace known b (calls ++ rest) b'

namespace Traced

variable {known : List Wire} {x : Build K α} {given : α → List Wire}

protected theorem pure (known : List Wire) (a : α) :
    Traced known (pure a : Build K α) fun _ => [] := by
  refine ⟨fun {b b₁ a'} h => ?_⟩
  obtain rfl : b = b₁ := congrArg Prod.snd h
  exact ⟨[], fun rest => by rwa [List.append_nil] at rest⟩

/-- One computation behind the other, which may use what the first one was handed out. -/
protected theorem bind {f : α → Build K β} {given' : β → List Wire} (hx : Traced known x given)
    (hf : ∀ a, Traced (known ++ given a) (f a) given') : Traced known (x >>= f) given' := by
  refine ⟨fun {b b₂ c} h => ?_⟩
  obtain ⟨a, b₁, hrun, hrest⟩ := runOn_bind_eq_ok.1 h
  obtain ⟨calls, hcalls⟩ := hx.exists_calls hrun
  obtain ⟨calls', hcalls'⟩ := (hf a).exists_calls hrest
  refine ⟨calls ++ calls', fun rest => ?_⟩
  rw [List.append_assoc]
  refine hcalls (hcalls' (rest.mono (List.append_subset.2 ⟨?_, List.subset_append_right _ _⟩)))
  exact fun w hw => List.mem_append_left _ (List.mem_append_left _ hw)

/-- What is done to the result of a computation makes no calls. -/
protected theorem map {f : α → β} (hx : Traced known x given) :
    Traced known (f <$> x) fun _ => [] := by
  refine ⟨fun {b b₁ c} h => ?_⟩
  obtain ⟨a, hrun, -⟩ := runOn_map_eq_ok.1 h
  obtain ⟨calls, hcalls⟩ := hx.exists_calls hrun
  exact ⟨calls, fun rest => hcalls (rest.mono (List.append_subset.2
    ⟨List.subset_append_left _ _, List.nil_subset _⟩))⟩

/-- An operation on wires that are known is one call. -/
theorem of_operation (op : Operation K) {f : α → Result K} (run : op.run = f <$> x)
    (knows : op.Knows known) : Traced known x fun a => (f a).mentioned := by
  refine ⟨fun {b b₁ a} h => ?_⟩
  have hrun : runOn op.run b = (.ok (f a), b₁) := by
    rw [run]
    exact runOn_map_eq_ok.2 ⟨a, h, rfl⟩
  refine ⟨[⟨op, .ok (f a)⟩], fun rest => .call (fun a' ha w hw => ?_) hrun rest⟩
  exact (knows a' ha w hw).imp_right .inl

/-- The wire of an input is known. -/
theorem get (io : Inputs) (name : String) (sub : io.wires.map (·.2) ⊆ known) :
    Traced known (io.get name : Build K Wire) fun w => [w] := by
  refine ⟨fun {b b₁ w} h => ?_⟩
  rw [Inputs.get] at h
  split at h
  · next w' hw' =>
    obtain ⟨hw, rfl⟩ : (.ok w' : Outcome CompileError Wire) = .ok w ∧ b = b₁ := Prod.mk.inj h
    obtain rfl := Except.ok.inj hw
    obtain ⟨l, r, hwires, -⟩ := List.lookup_eq_some_iff.1 hw'
    have hmem : w' ∈ known := sub <| List.mem_map.2 ⟨(name, w'), by simp [hwires], rfl⟩
    refine ⟨[], fun rest => rest.mono (List.append_subset.2 ⟨List.Subset.refl _, ?_⟩)⟩
    exact fun w hw => by rwa [List.mem_singleton.1 hw]
  · cases h

end Traced

end Build

/-! ## Traceable circuits -/

namespace Circuit

/-- The definition makes nothing but calls with the wires of the inputs. -/
def Traceable (c : Circuit K) : Prop :=
  ∀ io : Inputs, Build.Traced (io.wires.map (·.2)) (c.define io) fun _ => []

/-- **A traceable circuit that compiles makes the calls of a compilation.** -/
theorem Traceable.exists_compilation {c : Circuit K} (traceable : c.Traceable) {modulus : Modulus}
    {session : Nat} {r : R1CS K} (h : c.compile modulus session = .ok r) :
    ∃ calls, Compilation c modulus session calls r := by
  obtain ⟨-, b', hbuild, -⟩ := Compilation.compile_eq_ok h
  obtain ⟨io, b, hdeclare, hdefine⟩ := Build.runOn_bind_eq_ok.1 hbuild
  obtain ⟨calls, hcalls⟩ := (traceable io).exists_calls hdefine
  exact ⟨calls ++ [], h, io, b, b', hdeclare, hdefine, hcalls (.done _ b')⟩

/-! ## Built-in circuits -/

theorem traceable_cubic : (cubic : Circuit K).Traceable := by
  intro io
  refine (Build.Traced.get io "x" (List.Subset.refl _)).bind fun x => ?_
  refine (Build.Traced.get io "y" (List.subset_append_left _ _)).bind fun y => ?_
  refine (Build.Traced.of_operation (.mulMany [ofWire x, ofWire x, ofWire x]) rfl ?_).bind
    fun cube => ?_
  · simp [Operation.Knows, Operation.operands]
  refine (Build.Traced.of_operation (.sum [cube, ofWire x, .constant (Fp.ofNat K 5)]) rfl ?_).bind
    fun right => ?_
  · simpa +contextual [Operation.Knows, Operation.operands, Result.mentioned] using
      fun w hw => .inl (LinearCombination.mem_wires_constant hw)
  refine Build.Traced.of_operation (.assertEqual (ofWire y) right) (f := fun _ => .asserted) rfl ?_
  simp +contextual [Operation.Knows, Operation.operands, Result.mentioned]

/-- Asking for the inverse of a wire less one. -/
theorem traced_inverse_sub_one {known : List Wire} {w : Wire} (mem : w ∈ known) :
    Build.Traced known (do
      let shifted ← Build.sub (ofWire w) (Build.constant (1 : Fp K))
      discard (Build.inverse shifted)) fun _ => [] := by
  refine (Build.Traced.of_operation (.sub (ofWire w) (.constant 1)) rfl ?_).bind fun shifted => ?_
  · simpa [Operation.Knows, Operation.operands, mem] using
      fun w hw => .inl (LinearCombination.mem_wires_constant hw)
  refine (Build.Traced.of_operation (.inverse shifted) rfl ?_).map
  simp +contextual [Operation.Knows, Operation.operands, Result.mentioned]

theorem traceable_factor : (factor : Circuit K).Traceable := by
  intro io
  refine (Build.Traced.get io "n" (List.Subset.refl _)).bind fun n => ?_
  refine (Build.Traced.get io "p" (List.subset_append_left _ _)).bind fun p => ?_
  refine (Build.Traced.get io "q" ?_).bind fun q => ?_
  · exact fun w hw => by simp [hw]
  refine (Build.Traced.of_operation (.mul (ofWire p) (ofWire q)) rfl ?_).bind fun product => ?_
  · simp [Operation.Knows, Operation.operands]
  refine (Build.Traced.of_operation (.assertEqual (ofWire product) (ofWire n)) rfl ?_).bind
    fun _ => ?_
  · simp [Operation.Knows, Operation.operands, Result.mentioned]
  refine (traced_inverse_sub_one (w := p) (by simp)).bind fun _ => ?_
  exact (traced_inverse_sub_one (w := q) (by simp)).bind fun _ => .pure _ _

theorem traceable_threshold (bits : Nat) : (threshold bits : Circuit K).Traceable := by
  intro io
  refine (Build.Traced.get io "value" (List.Subset.refl _)).bind fun value => ?_
  refine (Build.Traced.get io "threshold" (List.subset_append_left _ _)).bind fun threshold => ?_
  refine (Build.Traced.of_operation (.sub (ofWire value) (ofWire threshold)) rfl ?_).bind
    fun difference => ?_
  · simp [Operation.Knows, Operation.operands]
  refine (Build.Traced.of_operation (.toBinary difference bits) rfl ?_).map
  simp +contextual [Operation.Knows, Operation.operands, Result.mentioned]

/-- **The built-in circuits are traceable.** -/
theorem traceable_known : ∀ e ∈ known K, e.circuit.Traceable := by
  rw [known, List.forall_mem_cons, List.forall_mem_cons, List.forall_mem_singleton]
  exact ⟨traceable_cubic, traceable_factor, traceable_threshold 32⟩

/-- A circuit that is found by its name is traceable. -/
theorem traceable_of_find? {name : String} {c : Circuit K} (h : find? K name = some c) :
    c.Traceable := by
  obtain ⟨e, he, rfl⟩ := Option.map_eq_some_iff.1 h
  exact traceable_known e (List.mem_of_find?_eq_some he)

end Circuit

end Groth16
