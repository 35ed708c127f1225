import Mathlib.Logic.Equiv.Basic
import Groth16.Circuit.Known
import Groth16.Proofs.Circuit.Sessions

/-!
# Circuits that do not look at numbers of compilations

A definition may look into the handles that it is given, and do one thing in one compilation and
another in the next.  One that does not is `Uniform`: it does the same whatever the compilations are
called.  Such a circuit compiles in every compilation to the same system, but for the number.

* `Circuit.Uniform`: the definition of the circuit is equivariant.
* `Circuit.Uniform.compile_eq`: where it compiles once, it compiles again, to the renamed system.
* `Circuit.uniform_known`: the built-in circuits are uniform.
-/

set_option autoImplicit false

namespace Groth16

open Build (Equivariant)
open LinearCombination (ofWire)

variable {K : PrimeField} {f : Nat → Nat}

/-! ## Inputs -/

/-- The inputs where compilation `n` is called `f n`. -/
def Inputs.rename (f : Nat → Nat) (io : Inputs) : Inputs :=
  ⟨io.wires.map fun e => (e.1, (Relabeling.rename f).wire e.2)⟩

theorem inputWires_rename {role : Role} (hrole : role ≠ .constant) (f : Nat → Nat)
    (session n : Nat) (names : List String) :
    (inputWires role session n names).map (fun e => (e.1, (Relabeling.rename f).wire e.2)) =
      inputWires role (f session) n names := by
  induction names generalizing n with
  | nil => rfl
  | cons name names ih =>
    have hwire : (Relabeling.rename f).wire ⟨n, role, session⟩ = ⟨n, role, f session⟩ :=
      if_neg hrole
    rw [inputWires, List.map_cons, ih, inputWires, hwire]

theorem Schema.inputsOf_rename (schema : Schema) (f : Nat → Nat) (session : Nat) :
    (schema.inputsOf session).rename f = schema.inputsOf (f session) := by
  rw [Inputs.rename, inputsOf, inputsOf, List.map_append, inputWires_rename (by decide),
    inputWires_rename (by decide)]

theorem Inputs.equivariant_get (io : Inputs) (name : String) :
    Equivariant f (Relabeling.rename f).wire (io.get name : Build K Wire)
      ((io.rename f).get name) := by
  have hlookup : (io.rename f).wires.lookup name =
      (io.wires.lookup name).map (Relabeling.rename f).wire := by
    rw [rename]
    induction io.wires with
    | nil => rfl
    | cons e es ih =>
      rw [List.map_cons, List.lookup_cons, List.lookup_cons, ih]
      split
      · rfl
      · rfl
  rw [get, get, hlookup]
  cases io.wires.lookup name with
  | none => exact .report _
  | some w => exact .pure rfl

/-! ## Uniform circuits -/

namespace Circuit

/-- The definition does the same whatever the compilations are called. -/
def Uniform (c : Circuit K) : Prop :=
  ∀ f, Function.Injective f → ∀ io, Equivariant f id (c.define io) (c.define (io.rename f))

/-- **A uniform circuit that compiles once compiles in every compilation**, to the same system, but
for the number. -/
theorem Uniform.compile_eq {c : Circuit K} (uniform : c.Uniform) (inj : Function.Injective f)
    {modulus : Modulus} {session : Nat} {r : R1CS K} (h : c.compile modulus session = .ok r) :
    ∃ r', c.compile modulus (f session) = .ok r' ∧
      r'.toConstraintSystem = r.toConstraintSystem.relabel (.rename f) := by
  obtain ⟨hpre, b, hbuild, rfl⟩ := Compilation.compile_eq_ok h
  rw [Build.runOn_bind, runOn_declare] at hbuild
  have hrun := (uniform f inj (c.schema.inputsOf session)).runOn_rename
    ⟨session, 1 + (c.schema.names .public).length + (c.schema.names .secret).length, true, #[], #[]⟩
  dsimp only at hbuild
  rw [hbuild, Schema.inputsOf_rename, Builder.rename_empty] at hrun
  refine ⟨(b.rename f).finish (c.schema.names .public) (c.schema.names .secret) modulus, ?_, rfl⟩
  refine Compilation.compile_ok hpre ?_
  rw [Build.runOn_bind, runOn_declare]
  exact hrun

/-! ## Built-in circuits -/

theorem uniform_cubic : (cubic : Circuit K).Uniform := by
  intro f inj io
  refine (io.equivariant_get "x").bind fun x => (io.equivariant_get "y").bind fun y => ?_
  refine (Build.equivariant_mulMany inj [ofWire x, ofWire x, ofWire x]).bind fun cube => ?_
  have hsum := Build.equivariant_sum inj [cube, ofWire x, .constant (Fp.ofNat K 5)]
  rw [List.map_cons, List.map_cons, List.map_cons, LinearCombination.relabel_constant] at hsum
  exact hsum.bind fun right => Build.equivariant_assertEqual inj (ofWire y) right

theorem uniform_factor : (factor : Circuit K).Uniform := by
  intro f inj io
  refine (io.equivariant_get "n").bind fun n => (io.equivariant_get "p").bind fun p =>
    (io.equivariant_get "q").bind fun q => ?_
  refine (Build.equivariant_mul inj (ofWire p) (ofWire q)).bind fun product => ?_
  refine (Build.equivariant_assertEqual inj (ofWire product) (ofWire n)).bind fun _ => ?_
  have hfactor : ∀ w, Equivariant f id
      (do
        let shifted ← Build.sub (ofWire w) (Build.constant (1 : Fp K))
        discard (Build.inverse shifted))
      (do
        let shifted ← Build.sub (ofWire ((Relabeling.rename f).wire w)) (Build.constant (1 : Fp K))
        discard (Build.inverse shifted)) := by
    intro w
    have hshifted := Build.equivariant_sub inj (ofWire w) (.constant (1 : Fp K))
    rw [LinearCombination.relabel_constant] at hshifted
    exact hshifted.bind fun shifted => (Build.equivariant_inverse inj shifted).map fun _ => rfl
  exact (hfactor p).bind fun _ => (hfactor q).bind fun _ => .pure rfl

theorem uniform_threshold (bits : Nat) : (threshold bits : Circuit K).Uniform := by
  intro f inj io
  refine (io.equivariant_get "value").bind fun x =>
    (io.equivariant_get "threshold").bind fun y => ?_
  refine (Build.equivariant_sub inj (ofWire x) (ofWire y)).bind fun difference => ?_
  exact (Build.equivariant_toBinary inj difference bits).map fun _ => rfl

/-- **The built-in circuits are uniform.** -/
theorem uniform_known : ∀ e ∈ known K, e.circuit.Uniform := by
  rw [known, List.forall_mem_cons, List.forall_mem_cons, List.forall_mem_singleton]
  exact ⟨uniform_cubic, uniform_factor, uniform_threshold 32⟩

end Circuit

end Groth16
