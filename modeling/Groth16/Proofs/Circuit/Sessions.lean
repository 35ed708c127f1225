import Mathlib.Logic.Function.Basic
import Groth16.Proofs.Circuit.Compilation
import Groth16.Proofs.Circuit.Relabeling

/-!
# Compilations are told apart by nothing but their number

A builder looks at the number of a compilation only to tell its own handles from others.  So every
operation does the same whatever the numbers are: renaming the compilations before it runs comes to
the same as renaming them afterwards, also where it fails.  Two runs of a definition that make the
same calls, but for the numbers, therefore leave the same system behind.

* `Builder.rename f`: the builder where compilation `n` is called `f n`.
* `Build.Equivariant`: renaming before a computation comes to the same as renaming after it.
* `Operation.equivariant_run`: operations are equivariant.
* `Trace.eq_after`: what a definition leaves behind depends on nothing but the operations that it
  called.
* `Compilation.relabel_eq`: compilations that make the same calls, but for the numbers, give the same
  system, but for the numbers.
-/

set_option autoImplicit false

namespace Groth16

variable {K : PrimeField} {α β γ δ : Type} {f : Nat → Nat}

/-! ## Equivariant computations -/

/-- The builder where compilation `n` is called `f n`. -/
def Builder.rename (f : Nat → Nat) (b : Builder K) : Builder K :=
  { b with
    session := f b.session
    constraints := b.constraints.map (Constraint.relabel (.rename f))
    hints := b.hints.map (Hint.relabel (.rename f)) }

/-- Where nothing is recorded, there is nothing but the compilation to be renamed. -/
theorem Builder.rename_empty (f : Nat → Nat) (session n : Nat) (inputsSealed : Bool) :
    (⟨session, n, inputsSealed, #[], #[]⟩ : Builder K).rename f =
      ⟨f session, n, inputsSealed, #[], #[]⟩ := by
  simp [rename]

namespace Build

open LinearCombination (ofWire)

/-- Renaming the compilations before `x'` runs comes to the same as renaming them after `x` has run,
in its result with `φ`. -/
structure Equivariant (f : Nat → Nat) (φ : α → β) (x : Build K α) (x' : Build K β) : Prop where
  /-- On every builder, the outcome and the builder afterwards are the renamed ones. -/
  runOn_rename : ∀ b, runOn x' (b.rename f) = ((runOn x b).1.map φ, (runOn x b).2.rename f)

namespace Equivariant

variable {φ : α → β} {ψ : γ → δ}

theorem pure {a : α} {a' : β} (h : φ a = a') :
    Equivariant f φ (pure a : Build K α) (Pure.pure a') :=
  ⟨fun _ => by rw [← h]; rfl⟩

theorem report (e : CompileError) : Equivariant f φ (report e : Build K α) (Build.report e) :=
  ⟨fun _ => rfl⟩

/-- One computation behind the other. -/
theorem bind {x : Build K α} {x' : Build K β} {k : α → Build K γ} {k' : β → Build K δ}
    (hx : Equivariant f φ x x') (hk : ∀ a, Equivariant f ψ (k a) (k' (φ a))) :
    Equivariant f ψ (x >>= k) (x' >>= k') := by
  refine ⟨fun b => ?_⟩
  rw [runOn_bind, runOn_bind, hx.runOn_rename b]
  rcases runOn x b with ⟨_ | a, b₁⟩
  · rfl
  · exact (hk a).runOn_rename b₁

theorem map {x : Build K α} {x' : Build K β} {h : α → γ} {h' : β → δ} (hx : Equivariant f φ x x')
    (hh : ∀ a, ψ (h a) = h' (φ a)) : Equivariant f ψ (h <$> x) (h' <$> x') := by
  refine ⟨fun b => ?_⟩
  rw [runOn_map, runOn_map, hx.runOn_rename b]
  rcases runOn x b with ⟨_ | a, b₁⟩
  · rfl
  · exact Prod.ext (congrArg Except.ok (hh a).symm) rfl

/-- A computation for each entry of a list. -/
theorem foldlM {ρ : γ → δ} {step : α → γ → Build K α} {step' : β → δ → Build K β}
    (hstep : ∀ acc x, Equivariant f φ (step acc x) (step' (φ acc) (ρ x))) (xs : List γ) (acc : α) :
    Equivariant f φ (xs.foldlM step acc) ((xs.map ρ).foldlM step' (φ acc)) := by
  induction xs generalizing acc with
  | nil => exact pure rfl
  | cons x xs ih =>
    rw [List.map_cons, List.foldlM_cons, List.foldlM_cons]
    exact bind (hstep acc x) ih

end Equivariant

/-! ## The primitives -/

/-- A builder owns a handle under one name exactly if it does under another. -/
theorem owns_rename (inj : Function.Injective f) (b : Builder K) (w : Wire) :
    owns (b.rename f) ((Relabeling.rename f).wire w) = owns b w := by
  rw [Bool.eq_iff_iff, owns_iff, owns_iff, Relabeling.role_wire, Relabeling.index_wire]
  by_cases hrole : w.role = .constant
  · simp [hrole]
  · have hwire : (Relabeling.rename f).wire w = { w with session := f w.session } := if_neg hrole
    rw [hwire]
    simp [Builder.rename, inj.eq_iff]

theorem equivariant_checked (inj : Function.Injective f) (a : LinearCombination K) :
    Equivariant f (LinearCombination.relabel (.rename f)) (checked a)
      (checked (a.relabel (.rename f))) := by
  refine ⟨fun b => ?_⟩
  rw [runOn_checked, runOn_checked, LinearCombination.wires_relabel, List.all_map]
  have hall : (owns (b.rename f) ∘ (Relabeling.rename f).wire) = owns b :=
    funext (owns_rename inj b)
  rw [hall]
  split
  · rfl
  · rfl

theorem equivariant_compute (recipe : Recipe K) :
    Equivariant f (Relabeling.rename f).wire (compute recipe)
      (compute (recipe.relabel (.rename f))) := by
  refine ⟨fun b => ?_⟩
  rw [runOn_compute, runOn_compute]
  refine Prod.ext rfl ?_
  simp [Builder.rename, Builder.record, wireCount, rowsOf, hintsFrom, Hint.relabel]

theorem equivariant_enforce (tag : Tag) {a b c a' b' c' : LinearCombination K}
    (ha : a.relabel (.rename f) = a') (hb : b.relabel (.rename f) = b')
    (hc : c.relabel (.rename f) = c') :
    Equivariant f id (enforce tag a b c) (enforce tag a' b' c') := by
  refine ⟨fun s => ?_⟩
  rw [runOn_enforce, runOn_enforce]
  refine Prod.ext rfl ?_
  simp [Builder.rename, Builder.record, wireCount, rowsOf, hintsFrom, Constraint.relabel, ha, hb,
    hc]

/-! ## The operations -/

section
variable (inj : Function.Injective f)
include inj

theorem equivariant_add (a b : LinearCombination K) :
    Equivariant f (LinearCombination.relabel (.rename f)) (add a b)
      (add (a.relabel (.rename f)) (b.relabel (.rename f))) :=
  (equivariant_checked inj a).bind fun _ => (equivariant_checked inj b).bind fun _ =>
    .pure (LinearCombination.relabel_add ..)

theorem equivariant_sub (a b : LinearCombination K) :
    Equivariant f (LinearCombination.relabel (.rename f)) (sub a b)
      (sub (a.relabel (.rename f)) (b.relabel (.rename f))) :=
  (equivariant_checked inj a).bind fun _ => (equivariant_checked inj b).bind fun _ =>
    .pure (LinearCombination.relabel_sub ..)

theorem equivariant_neg (a : LinearCombination K) :
    Equivariant f (LinearCombination.relabel (.rename f)) (neg a)
      (neg (a.relabel (.rename f))) :=
  (equivariant_checked inj a).bind fun _ => .pure (LinearCombination.relabel_neg ..)

theorem equivariant_scale (a : LinearCombination K) (k : Fp K) :
    Equivariant f (LinearCombination.relabel (.rename f)) (scale a k)
      (scale (a.relabel (.rename f)) k) :=
  (equivariant_checked inj a).bind fun _ => .pure (LinearCombination.relabel_scale ..)

theorem equivariant_sum (as : List (LinearCombination K)) :
    Equivariant f (LinearCombination.relabel (.rename f)) (sum as)
      (sum (as.map (·.relabel (.rename f)))) := by
  have hstep : ∀ acc a : LinearCombination K,
      Equivariant f (LinearCombination.relabel (.rename f)) (do return acc + (← checked a))
        (do return acc.relabel (.rename f) + (← checked (a.relabel (.rename f)))) := fun acc a =>
    (equivariant_checked inj a).bind fun _ => .pure (LinearCombination.relabel_add ..)
  exact .foldlM hstep as 0

theorem equivariant_mul (a b : LinearCombination K) :
    Equivariant f (Relabeling.rename f).wire (mul a b)
      (mul (a.relabel (.rename f)) (b.relabel (.rename f))) :=
  (equivariant_checked inj a).bind fun _ => (equivariant_checked inj b).bind fun _ =>
    (equivariant_compute _).bind fun _ => (equivariant_enforce _ rfl rfl rfl).bind fun _ =>
      .pure rfl

theorem equivariant_mulMany (as : List (LinearCombination K)) :
    Equivariant f (LinearCombination.relabel (.rename f)) (mulMany as)
      (mulMany (as.map (·.relabel (.rename f)))) := by
  cases as with
  | nil => exact .report .emptyProduct
  | cons a as =>
    have hstep : ∀ acc x : LinearCombination K,
        Equivariant f (LinearCombination.relabel (.rename f))
          (do return (ofWire (← mul acc x) : LinearCombination K))
          (do return (ofWire (← mul (acc.relabel (.rename f)) (x.relabel (.rename f))) :
            LinearCombination K)) := fun acc x =>
      (equivariant_mul inj acc x).bind fun _ => .pure rfl
    exact (equivariant_checked inj a).bind fun first => .foldlM hstep as first

theorem equivariant_assertEqual (a b : LinearCombination K) :
    Equivariant f id (assertEqual a b)
      (assertEqual (a.relabel (.rename f)) (b.relabel (.rename f))) := by
  refine (equivariant_checked inj a).bind fun a => (equivariant_checked inj b).bind fun b => ?_
  rw [LinearCombination.asConstant?_relabel, LinearCombination.asConstant?_relabel]
  split
  · split
    · exact .pure rfl
    · exact .report _
  · exact equivariant_enforce _ rfl rfl rfl

theorem equivariant_inverse (a : LinearCombination K) :
    Equivariant f (LinearCombination.relabel (.rename f)) (inverse a)
      (inverse (a.relabel (.rename f))) := by
  refine (equivariant_checked inj a).bind fun a => ?_
  rw [LinearCombination.asConstant?_relabel]
  split
  · split
    · exact .pure (LinearCombination.relabel_constant ..)
    · exact .report _
  · exact (equivariant_compute _).bind fun _ => (equivariant_enforce _ rfl rfl rfl).bind fun _ =>
      .pure rfl

theorem equivariant_div (a b : LinearCombination K) :
    Equivariant f (LinearCombination.relabel (.rename f)) (div a b)
      (div (a.relabel (.rename f)) (b.relabel (.rename f))) := by
  refine (equivariant_checked inj a).bind fun a => (equivariant_checked inj b).bind fun b => ?_
  rw [LinearCombination.asConstant?_relabel]
  split
  · split
    · exact .pure (LinearCombination.relabel_scale ..)
    · exact .report _
  · exact (equivariant_compute _).bind fun _ => (equivariant_enforce _ rfl rfl rfl).bind fun _ =>
      .pure rfl

omit inj in
theorem equivariant_enforceBoolean (tag : Tag) (a : LinearCombination K) :
    Equivariant f id (enforceBoolean tag a) (enforceBoolean tag (a.relabel (.rename f))) := by
  rw [enforceBoolean, enforceBoolean, LinearCombination.asConstant?_relabel]
  split
  · split
    · exact .pure rfl
    · exact .report _
  · exact equivariant_enforce _ rfl (by simp) rfl

theorem equivariant_assertBoolean (a : LinearCombination K) :
    Equivariant f id (assertBoolean a) (assertBoolean (a.relabel (.rename f))) :=
  (equivariant_checked inj a).bind fun a => equivariant_enforceBoolean .boolean a

theorem equivariant_select (bit x y : LinearCombination K) :
    Equivariant f (LinearCombination.relabel (.rename f)) (select bit x y)
      (select (bit.relabel (.rename f)) (x.relabel (.rename f)) (y.relabel (.rename f))) := by
  refine (equivariant_checked inj bit).bind fun bit => (equivariant_checked inj x).bind fun x =>
    (equivariant_checked inj y).bind fun y =>
    (equivariant_enforceBoolean .select bit).bind fun _ => ?_
  rw [LinearCombination.asConstant?_relabel]
  split
  · refine .pure ?_
    split
    · rfl
    · rfl
  · have hdifference : x.relabel (.rename f) - y.relabel (.rename f) =
        (x - y).relabel (.rename f) := (LinearCombination.relabel_sub ..).symm
    rw [hdifference]
    dsimp only
    rw [LinearCombination.isEmpty_relabel]
    split
    · exact .pure rfl
    · exact (equivariant_compute _).bind fun _ => (equivariant_enforce _ rfl rfl rfl).bind fun _ =>
        .pure (by simp)

theorem equivariant_isZero (a : LinearCombination K) :
    Equivariant f (LinearCombination.relabel (.rename f)) (isZero a)
      (isZero (a.relabel (.rename f))) := by
  refine (equivariant_checked inj a).bind fun a => ?_
  rw [LinearCombination.asConstant?_relabel]
  split
  · exact .pure (LinearCombination.relabel_constant ..)
  · refine (equivariant_compute _).bind fun m => (equivariant_compute _).bind fun out => ?_
    exact (equivariant_enforce _ rfl rfl (by simp)).bind fun _ =>
      (equivariant_enforce _ rfl rfl rfl).bind fun _ => .pure rfl

omit inj in
theorem equivariant_bits (a : LinearCombination K) (i n : Nat) :
    Equivariant f (List.map (Relabeling.rename f).wire) (bits a i n)
      (bits (a.relabel (.rename f)) i n) := by
  induction n generalizing i with
  | zero => exact .pure rfl
  | succ n ih =>
    refine (equivariant_compute (.bit a i)).bind fun b => ?_
    exact (equivariant_enforce _ rfl (by simp) rfl).bind fun _ => (ih (i + 1)).bind fun _ =>
      .pure rfl

omit inj in
theorem weighted_relabel (weight : Fp K) (ws : List Wire) :
    (weighted weight ws).map (Term.relabel (.rename f)) =
      weighted weight (ws.map (Relabeling.rename f).wire) := by
  induction ws generalizing weight with
  | nil => rfl
  | cons w ws ih =>
    rw [weighted, List.map_cons, List.map_cons, weighted, ih]
    rfl

theorem equivariant_toBinary (a : LinearCombination K) (n : Nat) :
    Equivariant f (List.map (Relabeling.rename f).wire) (toBinary a n)
      (toBinary (a.relabel (.rename f)) n) := by
  refine (equivariant_checked inj a).bind fun a => ?_
  have hrest : Equivariant f (List.map (Relabeling.rename f).wire)
      (do
        let bs ← bits a 0 n
        enforce .binary (.ofTerms (weighted 1 bs)) one a
        return bs)
      (do
        let bs ← bits (a.relabel (.rename f)) 0 n
        enforce .binary (.ofTerms (weighted 1 bs)) one (a.relabel (.rename f))
        return bs) := by
    refine (equivariant_bits a 0 n).bind fun bs => ?_
    exact (equivariant_enforce _ (by rw [LinearCombination.relabel_ofTerms, weighted_relabel]) rfl
      rfl).bind fun _ => .pure rfl
  split
  · have hreport : Equivariant f id (report (.bitWidth n (maxBits K)) : Build K Unit)
        (report (.bitWidth n (maxBits K))) := .report _
    exact hreport.bind fun _ => hrest
  · exact hrest

theorem equivariant_fromBinaryFrom (acc : LinearCombination K) (weight : Fp K)
    (bs : List (LinearCombination K)) :
    Equivariant f (LinearCombination.relabel (.rename f)) (fromBinaryFrom acc weight bs)
      (fromBinaryFrom (acc.relabel (.rename f)) weight (bs.map (·.relabel (.rename f)))) := by
  induction bs generalizing acc weight with
  | nil => exact .pure rfl
  | cons b bs ih =>
    refine (equivariant_checked inj b).bind fun b =>
      (equivariant_enforceBoolean .boolean b).bind fun _ => ?_
    have hrest := ih (acc + b.scale weight) (weight + weight)
    rwa [LinearCombination.relabel_add, LinearCombination.relabel_scale] at hrest

end

end Build

/-- **Operations are equivariant.** -/
theorem Operation.equivariant_run (inj : Function.Injective f) (op : Operation K) :
    Build.Equivariant f (Result.relabel (.rename f)) op.run (op.relabel (.rename f)).run := by
  cases op with
  | constant k => exact .pure (congrArg Result.value (LinearCombination.relabel_constant ..))
  | add a b => exact (Build.equivariant_add inj a b).map fun _ => rfl
  | sub a b => exact (Build.equivariant_sub inj a b).map fun _ => rfl
  | neg a => exact (Build.equivariant_neg inj a).map fun _ => rfl
  | scale a k => exact (Build.equivariant_scale inj a k).map fun _ => rfl
  | sum as => exact (Build.equivariant_sum inj as).map fun _ => rfl
  | mul a b => exact (Build.equivariant_mul inj a b).map fun _ => rfl
  | mulMany as => exact (Build.equivariant_mulMany inj as).map fun _ => rfl
  | assertEqual a b => exact (Build.equivariant_assertEqual inj a b).map fun _ => rfl
  | inverse a => exact (Build.equivariant_inverse inj a).map fun _ => rfl
  | div a b => exact (Build.equivariant_div inj a b).map fun _ => rfl
  | assertBoolean a => exact (Build.equivariant_assertBoolean inj a).map fun _ => rfl
  | select bit x y => exact (Build.equivariant_select inj bit x y).map fun _ => rfl
  | isZero a => exact (Build.equivariant_isZero inj a).map fun _ => rfl
  | toBinary a n => exact (Build.equivariant_toBinary inj a n).map fun _ => rfl
  | fromBinary as => exact (Build.equivariant_fromBinaryFrom inj 0 1 as).map fun _ => rfl

/-! ## Definitions that make the same calls -/

/-- What calls of operations leave behind. -/
def Builder.after (b : Builder K) (ops : List (Operation K)) : Builder K :=
  ops.foldl (fun b op => (Build.runOn op.run b).2) b

/-- **What a definition leaves behind depends on nothing but the operations that it called.** -/
theorem Trace.eq_after {known : List Wire} {b b' : Builder K} {calls : List (Call K)}
    (h : Trace known b calls b') : b' = b.after (calls.map (·.operation)) := by
  induction h with
  | done known b => rfl
  | call handedOut run rest ih =>
    rw [ih, List.map_cons, Builder.after, Builder.after, List.foldl_cons, run]
  | refused run rest ih =>
    obtain rfl := runOn_allocate_eq_error run
    exact ih

theorem Builder.after_rename (inj : Function.Injective f) (b : Builder K)
    (ops : List (Operation K)) :
    (b.rename f).after (ops.map (·.relabel (.rename f))) = (b.after ops).rename f := by
  induction ops generalizing b with
  | nil => rfl
  | cons op ops ih =>
    have hrun := congrArg Prod.snd ((op.equivariant_run inj).runOn_rename b)
    dsimp only at hrun
    rw [List.map_cons, after, List.foldl_cons, hrun]
    exact ih _

/-- **Compilations that make the same calls, but for the numbers, give the same system, but for the
numbers.** -/
theorem Compilation.relabel_eq {c c' : Circuit K} {modulus modulus' : Modulus}
    {session session' : Nat} {calls calls' : List (Call K)} {r r' : R1CS K}
    (h : Compilation c modulus session calls r) (h' : Compilation c' modulus' session' calls' r')
    (inj : Function.Injective f) (renamed : f session = session') (schema : c'.schema = c.schema)
    (same : calls'.map (·.operation) = calls.map (·.operation.relabel (.rename f))) :
    r'.toConstraintSystem = r.toConstraintSystem.relabel (.rename f) := by
  obtain ⟨_, recorded, -⟩ := h.exists_recorded
  obtain ⟨_, recorded', -⟩ := h'.exists_recorded
  obtain ⟨b, rfl, htrace⟩ := h.exists_trace
  obtain ⟨b', rfl, htrace'⟩ := h'.exists_trace
  obtain rfl : modulus' = modulus := recorded'.modulus.trans recorded.modulus.symm
  have hb' : b' = b.rename f := by
    rw [htrace'.eq_after, htrace.eq_after, same, schema, ← renamed, ← Builder.after_rename inj,
      Builder.rename_empty, List.map_map]
    rfl
  rw [hb', schema]
  rfl

end Groth16
