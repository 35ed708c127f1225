import Groth16.Field.Known
import Groth16.Proofs.Circuit.Breaches
import Groth16.Proofs.Circuit.Handles

/-!
# Handles of other compilations

A combination can be put together from handles of several compilations.  The normal form tells
handles apart by their index only, so that a handle of another compilation is seen by the builder if
it is the one that is kept for its index, and otherwise passes for the one that is kept.

* `Assembly`: a combination as it is put together.
* `Assembly.kept?`: the handle that it keeps for an index.
* `Assembly.mem_wires_combine`: the handles that are kept are those that the builder gets to see.
* `sessions_isolated`: what an operation does with combinations that are put together, and when a
  handle of another compilation is noticed.
* `Isolation.foreign_handle_passes`: one that is not.
-/

set_option autoImplicit false

namespace Groth16

open LinearCombination (ofWire unit)

variable {K : PrimeField}

/-! ## Combinations as they are put together -/

/-- How a combination is put together. -/
inductive Assembly (K : PrimeField) where
  /-- From a handle. -/
  | wire (w : Wire)
  /-- From a list of handles with coefficients. -/
  | terms (ts : List (Term K))
  /-- As a sum. -/
  | add (e f : Assembly K)
  /-- As a difference. -/
  | sub (e f : Assembly K)
  /-- As a negative. -/
  | neg (e : Assembly K)
  /-- As a multiple. -/
  | scale (e : Assembly K) (k : Fp K)

namespace Assembly

/-- The combination. -/
def combine : Assembly K → LinearCombination K
  | wire w => ofWire w
  | terms ts => .ofTerms ts
  | add e f => e.combine + f.combine
  | sub e f => e.combine - f.combine
  | neg e => -e.combine
  | scale e k => e.combine.scale k

/-- The handles that it is put together from. -/
def handles : Assembly K → List Wire
  | wire w => [w]
  | terms ts => ts.map (·.wire)
  | add e f | sub e f => e.handles ++ f.handles
  | neg e | scale e _ => e.handles

/-- The sum of the coefficients that handles with an index were given, whichever handles these
are. -/
def total : Assembly K → Nat → Fp K
  | wire w, i => if w.index = i then 1 else 0
  | terms ts, i => ((ts.filter (·.wire.index = i)).map (·.coeff)).sum
  | add e f, i => e.total i + f.total i
  | sub e f, i => e.total i - f.total i
  | neg e, i => -e.total i
  | scale e k, i => k * e.total i

/-- The handle that is kept for an index: the first with this index, where the coefficients of such
handles do not add up to zero, neither here nor in the part that it comes from. -/
def kept? : Assembly K → Nat → Option Wire
  | wire w, i => if w.index = i then some w else none
  | terms ts, i =>
    if (terms ts).total i = 0 then none else (ts.map (·.wire)).find? (·.index = i)
  | add e f, i => if (add e f).total i = 0 then none else (e.kept? i).or (f.kept? i)
  | sub e f, i => if (sub e f).total i = 0 then none else (e.kept? i).or (f.kept? i)
  | neg e, i => e.kept? i
  | scale e k, i => if k = 0 then none else e.kept? i

theorem termSum_unit (ts : List (Term K)) (i : Nat) :
    LinearCombination.termSum (unit i) ts = (terms ts).total i := by
  rw [total]
  induction ts with
  | nil => rfl
  | cons t ts ih =>
    rw [LinearCombination.termSum_unit_cons, ih]
    by_cases h : t.wire.index = i
    · rw [if_pos h, List.filter_cons_of_pos (by simpa using h), List.map_cons, List.sum_cons]
    · rw [if_neg h, List.filter_cons_of_neg (by simpa using h), zero_add]

/-- The coefficient of the combination at an index is the sum of those that were given. -/
theorem eval_combine (e : Assembly K) (i : Nat) : e.combine.eval (unit i) = e.total i := by
  induction e with
  | wire w => exact LinearCombination.eval_ofWire w (unit i)
  | terms ts => rw [combine, LinearCombination.eval_ofTerms, termSum_unit]
  | add e f ihe ihf => rw [combine, LinearCombination.eval_add, ihe, ihf, total]
  | sub e f ihe ihf => rw [combine, LinearCombination.eval_sub, ihe, ihf, total]
  | neg e ih => rw [combine, LinearCombination.eval_neg, ih, total]
  | scale e k ih => rw [combine, LinearCombination.eval_scale, ih, total]

theorem handle?_combine (e : Assembly K) (i : Nat) : e.combine.handle? i = e.kept? i := by
  induction e with
  | wire w => exact LinearCombination.handle?_ofWire w i
  | terms ts =>
    rw [combine, LinearCombination.handle?_ofTerms, termSum_unit]
    rfl
  | add e f ihe ihf =>
    rw [combine, LinearCombination.handle?_add, ihe, ihf, ← combine, eval_combine, kept?]
  | sub e f ihe ihf =>
    rw [combine, LinearCombination.handle?_sub, ihe, ihf, ← combine, eval_combine, kept?]
  | neg e ih => rw [combine, LinearCombination.handle?_neg, ih, kept?]
  | scale e k ih => rw [combine, LinearCombination.handle?_scale, ih, kept?]

theorem ascending_combine (e : Assembly K) : LinearCombination.Ascending e.combine.terms := by
  induction e with
  | wire w => exact List.pairwise_singleton _ _
  | terms ts => exact LinearCombination.ascending_ofTerms ts
  | add e f => exact LinearCombination.ascending_ofTerms _
  | sub e f => exact LinearCombination.ascending_ofTerms _
  | neg e ih => exact LinearCombination.ascending_neg ih
  | scale e k ih => exact LinearCombination.ascending_scale ih k

/-- **The wires that a combination mentions** are the handles that are kept. -/
theorem mem_wires_combine {e : Assembly K} {w : Wire} :
    w ∈ e.combine.wires ↔ e.kept? w.index = some w := by
  rw [← handle?_combine]
  exact e.ascending_combine.mem_iff

/-- A handle that is kept was used, and has the index that it is kept for. -/
theorem mem_of_kept? {e : Assembly K} {i : Nat} {w : Wire} (h : e.kept? i = some w) :
    w ∈ e.handles ∧ w.index = i := by
  refine ⟨?_, (LinearCombination.index_of_firstHandle? (handle?_combine e i ▸ h)).2⟩
  induction e with
  | wire v =>
    rw [kept?, Option.ite_none_right_eq_some] at h
    exact List.mem_singleton.2 (Option.some.inj h.2).symm
  | terms ts =>
    rw [kept?, Option.ite_none_left_eq_some] at h
    exact List.mem_of_find?_eq_some h.2
  | add e f ihe ihf | sub e f ihe ihf =>
    rw [kept?, Option.ite_none_left_eq_some, Option.or_eq_some_iff] at h
    rcases h.2 with h | ⟨-, h⟩
    · exact List.mem_append_left _ (ihe h)
    · exact List.mem_append_right _ (ihf h)
  | neg e ih => exact ih h
  | scale e k ih =>
    rw [kept?, Option.ite_none_left_eq_some] at h
    exact ih h.2

/-- Where the coefficients of an index do not add up to zero, a handle is kept. -/
theorem exists_kept? {e : Assembly K} {i : Nat} (h : e.total i ≠ 0) : ∃ w, e.kept? i = some w := by
  rw [← eval_combine] at h
  simpa only [handle?_combine] using LinearCombination.exists_handle? h

end Assembly

/-! ## Operations on them -/

section
variable {b b' : Builder K} {op : Operation K} {outcome : Outcome CompileError (Result K)}

/-- Whatever an operation is given, it records what an operation records on operands without handles
of other compilations. -/
theorem exists_recorded_without_foreign (run : Build.runOn op.run b = (outcome, b')) :
    ∃ op' : Operation K, op'.operands ⊆ op.operands ∧
      (∀ a ∈ op'.operands, ∀ w ∈ a.wires, ¬ b.Foreign w) ∧
        b' = b.record (op'.items b.session b.numWires) := by
  rcases Operation.runOn_cases run with rfl | ⟨op', r, hr, hsubset⟩
  · exact ⟨.constant 0, List.nil_subset _, nofun, (Builder.record_nil _).symm⟩
  · obtain ⟨-, owned, -, rfl⟩ := Operation.runOn_ok hr
    refine ⟨op', hsubset, fun a ha w hw foreign => ?_, rfl⟩
    exact (show (b.record _).Foreign w from foreign).not_owns (owned a ha w hw)

/-- An operation with a handle of another compilation does not succeed, and is a breach if it reads
it. -/
theorem outcome_of_unusable (run : Build.runOn op.run b = (outcome, b')) {k : Nat}
    {a : LinearCombination K} (h : op.operands[k]? = some a) (unusable : Build.Unusable b a) :
    (op.Reaches k → outcome = .breach) ∧ ∀ r, outcome ≠ .ok r := by
  constructor
  · intro reaches
    obtain ⟨b'', hbreach⟩ := Operation.breaches_of_unusable h unusable reaches
    exact congrArg Prod.fst (run.symm.trans hbreach)
  · rintro r rfl
    obtain ⟨-, owned, -, rfl⟩ := Operation.runOn_ok run
    exact (unusable.record _).not_owned (owned a (List.mem_of_getElem? h))

end

/-- **Compilations are kept apart, as far as their handles are told apart.**  Let an operation be
run on combinations that are put together from any handles.

A handle of another compilation that is kept for its index is noticed: the operation does not
succeed, and it is a breach if it gets to read that operand.  So it is wherever an index has handles
of other compilations only, with coefficients that do not add up to zero.  Nothing is recorded from
an operand with such a handle, and no row or recipe mentions one.  Conversely, a breach comes from a
handle that is kept and may not be used, and there is none on handles that may be used. -/
theorem sessions_isolated {b b' : Builder K} {op : Operation K} {es : List (Assembly K)}
    {outcome : Outcome CompileError (Result K)} (operands : op.operands = es.map Assembly.combine)
    (run : Build.runOn op.run b = (outcome, b')) :
    (∀ k e i w, es[k]? = some e → e.kept? i = some w → b.Foreign w →
      (op.Reaches k → outcome = .breach) ∧ ∀ r, outcome ≠ .ok r) ∧
    (∀ k e i, es[k]? = some e → e.total i ≠ 0 → (∀ w ∈ e.handles, w.index = i → b.Foreign w) →
      (op.Reaches k → outcome = .breach) ∧ ∀ r, outcome ≠ .ok r) ∧
    (∃ op' : Operation K, op'.operands ⊆ op.operands ∧
      (∀ a ∈ op'.operands, ∀ w ∈ a.wires, ¬ b.Foreign w) ∧
      b' = b.record (op'.items b.session b.numWires) ∧
      ∀ x ∈ op'.items b.session b.numWires, ∀ a ∈ x.operands, ∀ w ∈ a.wires, ¬ b.Foreign w) ∧
    (outcome = .breach → ∃ e ∈ es, ∃ i w, e.kept? i = some w ∧ ¬ Build.owns b w = true) ∧
    ((∀ e ∈ es, ∀ w ∈ e.handles, Build.owns b w = true) → outcome ≠ .breach) := by
  have hkept : ∀ k e i w, es[k]? = some e → e.kept? i = some w → b.Foreign w →
      (op.Reaches k → outcome = .breach) ∧ ∀ r, outcome ≠ .ok r := by
    intro k e i w he hw foreign
    have hoperand : op.operands[k]? = some e.combine := by
      rw [operands, List.getElem?_map, he, Option.map_some]
    obtain ⟨-, rfl⟩ := Assembly.mem_of_kept? hw
    exact outcome_of_unusable run hoperand ⟨w, Assembly.mem_wires_combine.2 hw, foreign⟩
  have hbreach : outcome = .breach →
      ∃ e ∈ es, ∃ i w, e.kept? i = some w ∧ ¬ Build.owns b w = true := by
    rintro rfl
    by_contra hnone
    refine Operation.not_breaches (fun a ha w hw => ?_) ⟨b', run⟩
    rw [operands] at ha
    obtain ⟨e, he, rfl⟩ := List.mem_map.1 ha
    by_contra howns
    exact hnone ⟨e, he, w.index, w, Assembly.mem_wires_combine.1 hw, howns⟩
  refine ⟨hkept, fun k e i he htotal hforeign => ?_, ?_, hbreach, fun howns hb => ?_⟩
  · obtain ⟨w, hw⟩ := Assembly.exists_kept? htotal
    obtain ⟨hmem, hindex⟩ := Assembly.mem_of_kept? hw
    exact hkept k e i w he hw (hforeign w hmem hindex)
  · obtain ⟨op', hsubset, hlocal, hrecord⟩ := exists_recorded_without_foreign run
    refine ⟨op', hsubset, hlocal, hrecord, ?_⟩
    exact Operation.items_within (fun foreign => foreign.1 rfl) (fun i foreign => foreign.2 rfl) _
      hlocal
  · obtain ⟨e, he, i, w, hw, hnot⟩ := hbreach hb
    exact hnot (howns e he w (Assembly.mem_of_kept? hw).1)

/-! ## Two compilations -/

namespace Isolation

/-- A builder with one secret input. -/
def builder : Builder bn254Scalar := ⟨1, 2, true, #[], #[]⟩

/-- The handle of its input. -/
def own : Wire := ⟨1, .secret, 1⟩

/-- The handle of the input of another compilation. -/
def foreign : Wire := ⟨1, .secret, 2⟩

end Isolation

/-- A multiple of the handle of another compilation is noticed in a product, and a multiple of the
own handle is not. -/
theorem sessions_isolated_sample :
    Isolation.builder.Foreign Isolation.foreign ∧
      (Build.runOn (Operation.mul (Assembly.scale (.wire Isolation.foreign) 3).combine
        (Assembly.wire Isolation.own).combine).run Isolation.builder).1 = Outcome.breach ∧
      (Build.runOn (Operation.mul (Assembly.scale (.wire Isolation.own) 3).combine
        (Assembly.wire Isolation.own).combine).run Isolation.builder).1 ≠ Outcome.breach := by
  have hforeign : Isolation.builder.Foreign Isolation.foreign := ⟨by decide, by decide⟩
  have operands (v : Wire) : (Operation.mul (Assembly.scale (.wire v) 3).combine
      (Assembly.wire Isolation.own).combine : Operation bn254Scalar).operands =
        [Assembly.scale (.wire v) 3, .wire Isolation.own].map Assembly.combine := rfl
  refine ⟨hforeign, ?_, ?_⟩
  · have hkept : (Assembly.scale (.wire Isolation.foreign) (3 : Fp bn254Scalar)).kept? 1 =
        some Isolation.foreign := by decide +kernel
    obtain ⟨noticed, -⟩ := sessions_isolated (operands Isolation.foreign) rfl
    exact (noticed 0 _ 1 _ rfl hkept hforeign).1 trivial
  · have howns : ∀ e ∈ [(Assembly.wire Isolation.own).scale (3 : Fp bn254Scalar),
        .wire Isolation.own], ∀ w ∈ e.handles, Build.owns Isolation.builder w = true := by decide
    obtain ⟨-, -, -, -, safe⟩ := sessions_isolated (operands Isolation.own) rfl
    exact safe howns

namespace Isolation

/-- The sum of both handles. -/
def mixed : List (Term bn254Scalar) := [⟨1, own⟩, ⟨1, foreign⟩]

/-- **A handle of another compilation passes for one of the builder.**  In the sum of both, the
coefficients of the two handles are added since their indices are equal, and the handle of the
builder is kept.  The product of the sum is recorded, as that of twice the own wire. -/
theorem foreign_handle_passes :
    (∃ t ∈ mixed, t.coeff ≠ 0 ∧ builder.Foreign t.wire) ∧
      ∃ b', Build.runOn (Operation.mul (Assembly.terms mixed).combine Build.one).run builder =
        (.ok (.wire (.internal 1 2)), b') ∧
        b'.constraints.toList = [⟨⟨[⟨2, own⟩]⟩, Build.one, ofWire (.internal 1 2), .mul⟩] ∧
        b'.hints.size = 1 := by
  have hmixed : (Assembly.terms mixed).combine = ⟨[⟨2, own⟩]⟩ := by decide +kernel
  rw [hmixed]
  refine ⟨⟨⟨1, foreign⟩, by simp [mixed], by decide, by decide, by decide⟩, _, rfl, rfl, rfl⟩

end Isolation

end Groth16
