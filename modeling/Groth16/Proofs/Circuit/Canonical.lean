import Mathlib.Data.List.Sort
import Groth16.Proofs.Circuit.Handles
import Groth16.Proofs.Circuit.Soundness

/-!
# Linear combinations are linear forms

Linear combinations are folded, compared and hashed by their terms.  That is sound only if the terms
say no more and no less than the linear form that they stand for.  In general they say more: of two
handles with one index, one is kept.  Within one compilation an index has a single handle, and there
the terms and the linear form determine each other.

* `sessionWires`: the handles of one compilation; `Compilation.handles_mem`: all that are handed out
  are among them.
* `BuiltFrom`: what the operations make of some handles.
* `Canonical`: the normal form, which `BuiltFrom.canonical` finds kept by every operation.
* `EvaluatesLinearly`: on a vector, the operations are those of the field.
* `Canonical.eq_of_eval_unit`: a combination in normal form is determined by its coefficients.
* `combinations_canonical`: equal terms are equal linear forms, and constants are constant ones.
-/

set_option autoImplicit false

namespace Groth16

variable {K : PrimeField}

open LinearCombination (ofWire ofTerms constant)

/-! ## Handles of one compilation -/

/-- The handles of one compilation: the one-wire, and a single handle for every index after it, with
the role that the wire has. -/
def sessionWires (session : Nat) (role : Nat → Role) : Set Wire :=
  {w | w = .one ∨ 0 < w.index ∧ w = ⟨w.index, role w.index, session⟩}

theorem injOn_sessionWires (session : Nat) (role : Nat → Role) :
    (sessionWires session role).InjOn Wire.index := by
  rintro v (rfl | ⟨hv, hv'⟩) w (rfl | ⟨hw, hw'⟩) same
  · rfl
  · exact absurd same hw.ne
  · exact absurd same hv.ne'
  · rw [hv', hw', same]

/-- The role of the wire at an index, where the inputs are those of a schema. -/
def Schema.roleAt (schema : Schema) (i : Nat) : Role :=
  if i < 1 + (schema.names .public).length then .public
  else if i < 1 + (schema.names .public).length + (schema.names .secret).length then .secret
  else .internal

theorem Schema.roleAt_of_le {schema : Schema} {i : Nat}
    (h : 1 + (schema.names .public).length + (schema.names .secret).length ≤ i) :
    schema.roleAt i = .internal := by
  rw [Schema.roleAt, if_neg (by omega), if_neg (by omega)]

theorem Compilation.known_subset (schema : Schema) (session : Nat) :
    ∀ w ∈ Compilation.known schema session, w ∈ sessionWires session schema.roleAt := by
  intro w hw
  rw [Compilation.known, Schema.inputsOf, List.map_append, List.mem_append] at hw
  rcases hw with hw | hw
  · obtain ⟨e, he, rfl⟩ := List.mem_map.1 hw
    obtain ⟨k, hk, hwire⟩ := exists_of_mem_inputWires he
    have hlt := (List.getElem?_eq_some_iff.1 hk).1
    rw [hwire]
    refine .inr ⟨Nat.add_pos_left Nat.one_pos k, ?_⟩
    rw [Schema.roleAt, if_pos (Nat.add_lt_add_left hlt 1)]
  · obtain ⟨e, he, rfl⟩ := List.mem_map.1 hw
    obtain ⟨k, hk, hwire⟩ := exists_of_mem_inputWires he
    have hlt := (List.getElem?_eq_some_iff.1 hk).1
    rw [hwire]
    refine .inr ⟨by rw [Nat.add_assoc]; exact Nat.add_pos_left Nat.one_pos _, ?_⟩
    rw [Schema.roleAt, if_neg (Nat.not_lt.2 (Nat.le_add_right _ _)),
      if_pos (Nat.add_lt_add_left hlt _)]

/-- The calls of a trace give back handles of its compilation, if they are handed such. -/
theorem Trace.mentioned_subset {role : Nat → Role} {known : List Wire} {b b' : Builder K}
    {calls : List (Call K)} (h : Trace known b calls b')
    (before : ∀ w ∈ known, w ∈ sessionWires b.session role) (pos : 0 < b.numWires)
    (internal : ∀ i, b.numWires ≤ i → role i = .internal) :
    ∀ c ∈ calls, ∀ w ∈ c.mentioned, w ∈ sessionWires b.session role := by
  induction h with
  | done known b => simp
  | @call known b b₁ b' c calls handedOut run rest ih =>
    have hfirst : ∀ w ∈ c.mentioned, w ∈ sessionWires b.session role := by
      obtain ⟨op, outcome⟩ := c
      cases outcome with
      | error e => simp [Call.mentioned]
      | ok r =>
        change Build.runOn op.run b = (.ok r, b₁) at run
        obtain ⟨-, owned, rfl, rfl⟩ := Operation.runOn_ok run
        refine Operation.result_within (.inl rfl) (fun a ha w hw => ?_) fun i hi _ _ => ?_
        · rcases op.knows_of_owned handedOut _ owned a ha w hw with rfl | hw
          · exact .inl rfl
          · exact before w hw
        · refine .inr ⟨pos.trans_le hi, ?_⟩
          rw [Wire.internal, internal i hi]
    -- Whatever the outcome, what the call leaves behind only adds wires.
    have hnext : b₁.session = b.session ∧ b.numWires ≤ b₁.numWires := by
      rcases Operation.runOn_cases run with rfl | ⟨op', r, run', -⟩
      · exact ⟨rfl, le_rfl⟩
      · obtain ⟨-, -, -, rfl⟩ := Operation.runOn_ok run'
        exact ⟨rfl, Nat.le_add_right _ _⟩
    rw [List.forall_mem_cons]
    refine ⟨hfirst, ?_⟩
    rw [← hnext.1] at before hfirst ⊢
    refine ih (fun w hw => ?_) (pos.trans_le hnext.2) fun i hi => internal i (hnext.2.trans hi)
    exact (List.mem_append.1 hw).elim (before w) (hfirst w)
  | refused run rest ih =>
    obtain rfl := runOn_allocate_eq_error run
    exact ih before pos internal

/-- **The handles that a compilation hands out** are those of a session: those of the inputs, and
those that its calls give back. -/
theorem Compilation.handles_mem {c : Circuit K} {modulus : Modulus} {session : Nat}
    {calls : List (Call K)} {r : R1CS K} (h : Compilation c modulus session calls r) :
    ∀ w ∈ Compilation.known c.schema session ++ calls.flatMap Call.mentioned,
      w ∈ sessionWires session c.schema.roleAt := by
  obtain ⟨b, -, htrace⟩ := h.exists_trace
  have hmentioned := htrace.mentioned_subset (Compilation.known_subset c.schema session)
    (Nat.add_pos_left (Nat.add_pos_left Nat.one_pos _) _) fun i => Schema.roleAt_of_le
  intro w hw
  rcases List.mem_append.1 hw with hw | hw
  · exact Compilation.known_subset c.schema session w hw
  · obtain ⟨call, hcall, hw⟩ := List.mem_flatMap.1 hw
    exact hmentioned call hcall w hw

namespace LinearCombination

/-! ## Normal form -/

/-- What the operations make of the handles in a set. -/
inductive BuiltFrom (V : Set Wire) : LinearCombination K → Prop where
  /-- The empty combination. -/
  | zero : BuiltFrom V 0
  /-- A constant. -/
  | constant (k : Fp K) : BuiltFrom V (constant k)
  /-- The sum of any list of terms. -/
  | terms {ts : List (Term K)} (wires : ∀ t ∈ ts, t.wire ∈ V) : BuiltFrom V (ofTerms ts)
  /-- A wire by itself. -/
  | wire {w : Wire} (mem : w ∈ V) : BuiltFrom V (ofWire w)
  /-- A sum. -/
  | add {a b : LinearCombination K} (left : BuiltFrom V a) (right : BuiltFrom V b) :
      BuiltFrom V (a + b)
  /-- A difference. -/
  | sub {a b : LinearCombination K} (left : BuiltFrom V a) (right : BuiltFrom V b) :
      BuiltFrom V (a - b)
  /-- A negative. -/
  | neg {a : LinearCombination K} (operand : BuiltFrom V a) : BuiltFrom V (-a)
  /-- A multiple. -/
  | scale {a : LinearCombination K} (operand : BuiltFrom V a) (k : Fp K) : BuiltFrom V (a.scale k)

/-- The normal form: the indices ascend, and no coefficient is zero. -/
structure Canonical (a : LinearCombination K) : Prop where
  /-- The indices ascend. -/
  ascending : Ascending a.terms
  /-- No coefficient is zero. -/
  coeff_ne_zero : ∀ t ∈ a.terms, t.coeff ≠ 0

theorem canonical_zero : (0 : LinearCombination K).Canonical := ⟨.nil, fun _ ht => by cases ht⟩

theorem canonical_ofTerms (ts : List (Term K)) : (ofTerms ts).Canonical :=
  ⟨ascending_ofTerms ts, fun t ht => by simpa using (List.mem_filter.1 ht).2⟩

theorem canonical_ofWire (w : Wire) : (ofWire w : LinearCombination K).Canonical :=
  ⟨List.pairwise_singleton _ _, fun t ht => by rw [List.mem_singleton.1 ht]; exact one_ne_zero⟩

theorem Canonical.neg {a : LinearCombination K} (h : a.Canonical) : (-a).Canonical where
  ascending := ascending_neg h.ascending
  coeff_ne_zero t ht := by
    obtain ⟨u, hu, rfl⟩ := List.mem_map.1 ht
    exact neg_ne_zero.2 (h.coeff_ne_zero u hu)

/-- No term is lost in a multiple, because there are no divisors of zero. -/
theorem Canonical.scale [Fact K.modulus.Prime] {a : LinearCombination K} (h : a.Canonical)
    (k : Fp K) : (a.scale k).Canonical where
  ascending := ascending_scale h.ascending k
  coeff_ne_zero t ht := by
    rw [LinearCombination.scale] at ht
    split at ht
    · cases ht
    · next hk =>
      obtain ⟨u, hu, rfl⟩ := List.mem_map.1 ht
      exact mul_ne_zero (h.coeff_ne_zero u hu) hk

namespace BuiltFrom

variable {V : Set Wire} {a : LinearCombination K}

/-- **Every operation keeps the normal form.** -/
theorem canonical [Fact K.modulus.Prime] (h : BuiltFrom V a) : a.Canonical := by
  induction h with
  | zero => exact canonical_zero
  | constant k => exact canonical_ofTerms _
  | terms _ => exact canonical_ofTerms _
  | wire _ => exact canonical_ofWire _
  | add _ _ => exact canonical_ofTerms _
  | sub _ _ => exact canonical_ofTerms _
  | neg _ ih => exact ih.neg
  | scale _ k ih => exact ih.scale k

theorem within (h : BuiltFrom V a) (one : Wire.one ∈ V) : a.Within (· ∈ V) := by
  induction h with
  | zero => exact within_zero
  | constant k => exact within_constant one k
  | terms wires =>
    intro w hw
    obtain ⟨t, ht, rfl⟩ := List.mem_map.1 (mem_wires_ofTerms hw)
    exact wires t ht
  | wire mem => exact within_ofWire mem
  | add _ _ left right => exact left.add right
  | sub _ _ left right => exact left.sub right
  | neg _ ih => exact ih.neg
  | scale _ k ih => exact ih.scale k

end BuiltFrom

/-! ## Evaluation -/

/-- A combination has a value on a vector that holds all wires it mentions, and on no other. -/
theorem evaluate?_eq_some_iff {a : LinearCombination K} {z : Array (Fp K)} {x : Fp K} :
    a.evaluate? z = some x ↔ a.Below z.size ∧ a.eval (vectorAt z) = x := by
  refine ⟨fun h => ?_, fun ⟨hbelow, hx⟩ => by rw [evaluate?_eq_some hbelow, hx]⟩
  have hbelow : a.Below z.size := by
    obtain ⟨ts⟩ := a
    change evaluateTerms? z ts = some x at h
    induction ts generalizing x with
    | nil => exact fun w hw => by cases hw
    | cons t ts ih =>
      obtain ⟨y, hy, h⟩ := Option.bind_eq_some_iff.1 h
      obtain ⟨rest, hrest, -⟩ := Option.bind_eq_some_iff.1 h
      exact List.forall_mem_cons.2 ⟨(Array.getElem?_eq_some_iff.1 hy).1, ih hrest⟩
  rw [evaluate?_eq_some hbelow] at h
  exact ⟨hbelow, Option.some.inj h⟩

/-- On the vector the operations on combinations are those of the field, where the combinations have
a value. -/
structure EvaluatesLinearly (z : Array (Fp K)) : Prop where
  /-- The empty combination is zero. -/
  zero : (0 : LinearCombination K).evaluate? z = some 0
  /-- A constant is a multiple of the one-wire. -/
  constant (k x : Fp K) (one : z[0]? = some x) : (constant k).evaluate? z = some (k * x)
  /-- A list of terms is their plain sum. -/
  terms (ts : List (Term K)) (inside : ∀ t ∈ ts, t.wire.index < z.size) :
    (ofTerms ts).evaluate? z = some (ts.map fun t => t.coeff * vectorAt z t.wire.index).sum
  /-- A wire is its entry. -/
  wire (w : Wire) : (ofWire w).evaluate? z = z[w.index]?
  /-- Sums are sums. -/
  add (a b : LinearCombination K) (x y : Fp K) (left : a.evaluate? z = some x)
    (right : b.evaluate? z = some y) : (a + b).evaluate? z = some (x + y)
  /-- Differences are differences. -/
  sub (a b : LinearCombination K) (x y : Fp K) (left : a.evaluate? z = some x)
    (right : b.evaluate? z = some y) : (a - b).evaluate? z = some (x - y)
  /-- Negatives are negatives. -/
  neg (a : LinearCombination K) (x : Fp K) (operand : a.evaluate? z = some x) :
    (-a).evaluate? z = some (-x)
  /-- Multiples are multiples. -/
  scale (a : LinearCombination K) (k x : Fp K) (operand : a.evaluate? z = some x) :
    (a.scale k).evaluate? z = some (k * x)

theorem evaluatesLinearly (z : Array (Fp K)) : EvaluatesLinearly z where
  zero := rfl
  constant k x one := by
    refine evaluate?_eq_some_iff.2 ⟨within_constant ?_ k, ?_⟩
    · exact (Array.getElem?_eq_some_iff.1 one).1
    · rw [eval_constant, vectorAt_of_getElem? one]
  terms ts inside := by
    refine evaluate?_eq_some_iff.2 ⟨fun w hw => ?_, eval_ofTerms ts _⟩
    obtain ⟨t, ht, rfl⟩ := List.mem_map.1 (mem_wires_ofTerms hw)
    exact inside t ht
  wire w := by
    by_cases h : w.index < z.size
    · rw [evaluate?_eq_some (within_ofWire h), eval_ofWire, getElem?_eq_vectorAt h]
    · rw [evaluate?, ofWire, evaluateTerms?, Array.getElem?_eq_none (Nat.le_of_not_lt h)]
      rfl
  add a b x y left right := by
    obtain ⟨ha, rfl⟩ := evaluate?_eq_some_iff.1 left
    obtain ⟨hb, rfl⟩ := evaluate?_eq_some_iff.1 right
    exact evaluate?_eq_some_iff.2 ⟨Within.add ha hb, eval_add ..⟩
  sub a b x y left right := by
    obtain ⟨ha, rfl⟩ := evaluate?_eq_some_iff.1 left
    obtain ⟨hb, rfl⟩ := evaluate?_eq_some_iff.1 right
    exact evaluate?_eq_some_iff.2 ⟨Within.sub ha hb, eval_sub ..⟩
  neg a x operand := by
    obtain ⟨ha, rfl⟩ := evaluate?_eq_some_iff.1 operand
    exact evaluate?_eq_some_iff.2 ⟨Within.neg ha, eval_neg ..⟩
  scale a k x operand := by
    obtain ⟨ha, rfl⟩ := evaluate?_eq_some_iff.1 operand
    exact evaluate?_eq_some_iff.2 ⟨Within.scale ha k, eval_scale ..⟩

/-! ## Coefficients -/

/-- On a unit vector, a combination in normal form has the coefficient of the term there. -/
theorem Canonical.eval_unit {a : LinearCombination K} (h : a.Canonical) {t : Term K}
    (ht : t ∈ a.terms) : a.eval (unit t.wire.index) = t.coeff := by
  obtain ⟨ts⟩ := a
  have hascending : Ascending ts := h.ascending
  clear h
  change t ∈ ts at ht
  rw [eval_eq_termSum]
  change termSum (unit t.wire.index) ts = t.coeff
  induction ts with
  | nil => cases ht
  | cons u us ih =>
    obtain ⟨first, rest⟩ := List.pairwise_cons.1 hascending
    rw [termSum_unit_cons]
    rcases List.mem_cons.1 ht with rfl | ht
    · rw [if_pos rfl, termSum_unit_of_forall_ne fun v hv => (first v hv).ne', add_zero]
    · rw [if_neg (first t ht).ne, ih rest ht, zero_add]

/-- Terms of the one are terms of the other, if the coefficients are equal and the handles are. -/
theorem Canonical.mem_of_eval_unit {a b : LinearCombination K} (ha : a.Canonical)
    (hb : b.Canonical) (apart : ∀ v ∈ a.wires, ∀ w ∈ b.wires, v.index = w.index → v = w)
    (same : ∀ i, a.eval (unit i) = b.eval (unit i)) {t : Term K} (ht : t ∈ a.terms) :
    t ∈ b.terms := by
  have hcoeff := ha.eval_unit ht
  have hne : b.eval (unit t.wire.index) ≠ 0 := by
    rw [← same, hcoeff]
    exact ha.coeff_ne_zero t ht
  obtain ⟨w, hw⟩ := exists_handle? hne
  obtain ⟨hmem, hindex⟩ := index_of_firstHandle? hw
  obtain ⟨u, hu, rfl⟩ := List.mem_map.1 hmem
  have hwire : t.wire = u.wire :=
    apart _ (List.mem_map_of_mem ht) _ (List.mem_map_of_mem hu) hindex.symm
  have : t.coeff = u.coeff := by rw [← hcoeff, same, ← hindex, hb.eval_unit hu]
  obtain rfl : t = u := by
    cases t
    cases u
    rw [Term.mk.injEq]
    exact ⟨this, hwire⟩
  exact hu

/-- **The coefficients determine a combination** in normal form, where an index has one handle. -/
theorem Canonical.eq_of_eval_unit {a b : LinearCombination K} (ha : a.Canonical)
    (hb : b.Canonical) (apart : ∀ v ∈ a.wires, ∀ w ∈ b.wires, v.index = w.index → v = w)
    (same : ∀ i, a.eval (unit i) = b.eval (unit i)) : a = b := by
  have : Std.Antisymm fun t u : Term K => t.wire.index < u.wire.index :=
    ⟨fun _ _ h h' => absurd h h'.asymm⟩
  have : Std.Irrefl fun t u : Term K => t.wire.index < u.wire.index := ⟨fun _ => lt_irrefl _⟩
  have hterms : a.terms = b.terms := ha.ascending.eq_of_mem_iff hb.ascending fun t =>
    ⟨ha.mem_of_eval_unit hb apart same,
      hb.mem_of_eval_unit ha (fun v hv w hw h => (apart w hw v hv h.symm).symm)
        fun i => (same i).symm⟩
  cases a
  cases b
  exact congrArg LinearCombination.mk hterms

/-- The value on a sum of vectors is the sum of the values. -/
theorem eval_add_vectors (a : LinearCombination K) (z z' : Nat → Fp K) :
    a.eval (fun i => z i + z' i) = a.eval z + a.eval z' := by
  rw [eval_eq_termSum, eval_eq_termSum, eval_eq_termSum]
  induction a.terms with
  | nil => exact (add_zero 0).symm
  | cons t ts ih =>
    rw [termSum_cons, termSum_cons, termSum_cons, ih]
    ring

theorem exists_below (a : LinearCombination K) : ∃ n, a.Below n := by
  obtain ⟨n, hn⟩ := (a.wires.map Wire.index).toFinset.exists_nat_subset_range
  refine ⟨n, fun w hw => Finset.mem_range.1 (hn ?_)⟩
  exact List.mem_toFinset.2 (List.mem_map_of_mem hw)

/-- The first entries of a function, as a vector. -/
def entries (z : Nat → Fp K) (n : Nat) : Array (Fp K) := Array.ofFn fun i : Fin n => z i

theorem evaluate?_entries {a : LinearCombination K} {n : Nat} (h : a.Below n) (z : Nat → Fp K) :
    a.evaluate? (entries z n) = some (a.eval z) := by
  have hsize : (entries z n).size = n := Array.size_ofFn
  rw [evaluate?_eq_some (by rwa [hsize])]
  refine congrArg some (eval_congr fun w hw => vectorAt_of_getElem? ?_)
  rw [entries, Array.getElem?_ofFn, dif_pos (h w hw)]

/-! ## Equality and constants -/

/-- Combinations with equal values on all vectors that hold their wires are equal linear forms. -/
theorem eval_eq_of_evaluate?_eq {a b : LinearCombination K}
    (h : ∀ z, a.Below z.size → b.Below z.size → a.evaluate? z = b.evaluate? z)
    (z : Nat → Fp K) : a.eval z = b.eval z := by
  obtain ⟨m, ha⟩ := a.exists_below
  obtain ⟨n, hb⟩ := b.exists_below
  replace ha := ha.mono (Nat.le_max_left m n)
  replace hb := hb.mono (Nat.le_max_right m n)
  have hsize : (entries z (max m n)).size = max m n := Array.size_ofFn
  have := h (entries z (max m n)) (by rwa [hsize]) (by rwa [hsize])
  rwa [evaluate?_entries ha, evaluate?_entries hb, Option.some.injEq] at this

/-- A constant is read as itself. -/
theorem asConstant?_constant (k : Fp K) : (constant k).asConstant? = some k := by
  by_cases hk : k = 0
  · have hterms : (constant k).terms = [] := by simp [constant, ofTerms, addTerm, hk]
    rw [asConstant?, hterms, hk]
  · have hterms : (constant k).terms = [⟨k, .one⟩] := by simp [constant, ofTerms, addTerm, hk]
    rw [asConstant?, hterms]
    exact if_pos rfl

/-- A combination whose value is constant where the one-wire holds one is a constant. -/
theorem Canonical.eq_constant {a : LinearCombination K} {k : Fp K} (h : a.Canonical)
    (apart : ∀ w ∈ a.wires, w.index = 0 → w = .one) (value : ∀ z, z 0 = 1 → a.eval z = k) :
    a = constant k := by
  refine h.eq_of_eval_unit (canonical_ofTerms _) (fun v hv w hw same => ?_) fun i => ?_
  · obtain rfl := mem_wires_constant hw
    exact apart v hv same
  · have hzero : a.eval (unit 0) = k := value _ (if_pos rfl)
    rw [eval_constant]
    by_cases hi : i = 0
    · rw [hi, hzero, unit, if_pos rfl, mul_one]
    · -- Another entry may be changed to one, which leaves the value as it is.
      have hone : (unit i : Nat → Fp K) 0 = 0 := if_neg fun h => hi h.symm
      have hboth := value (fun j => unit 0 j + unit i j) (by rw [hone, add_zero]; exact if_pos rfl)
      rw [eval_add_vectors, hzero, add_eq_left] at hboth
      rw [hboth, hone, mul_zero]

/-- **Linear combinations are canonical.**  Take the handles of any session, and all combinations
that the operations make of them.  They are in normal form; evaluation turns the operations into
those of the field; two of them are equal exactly if they have equal values on all vectors that hold
their wires; and one of them is read as a constant exactly if that is its value on all such vectors
that begin with one. -/
theorem combinations_canonical [Fact K.modulus.Prime] (session : Nat) (role : Nat → Role) :
    (∀ a : LinearCombination K, BuiltFrom (sessionWires session role) a → a.Canonical) ∧
    (∀ z : Array (Fp K), EvaluatesLinearly z) ∧
    (∀ a b : LinearCombination K, BuiltFrom (sessionWires session role) a →
      BuiltFrom (sessionWires session role) b →
      (a = b ↔ ∀ z, a.Below z.size → b.Below z.size → a.evaluate? z = b.evaluate? z)) ∧
    ∀ (a : LinearCombination K) (k : Fp K), BuiltFrom (sessionWires session role) a →
      (a.asConstant? = some k ↔
        ∀ z, a.Below z.size → z[0]? = some 1 → a.evaluate? z = some k) := by
  have hone : Wire.one ∈ sessionWires session role := .inl rfl
  have apart := injOn_sessionWires session role
  refine ⟨fun a ha => ha.canonical, evaluatesLinearly, fun a b ha hb => ⟨?_, fun h => ?_⟩,
    fun a k ha => ⟨fun h z hz first => ?_, fun h => ?_⟩⟩
  · rintro rfl z - -
    rfl
  · exact ha.canonical.eq_of_eval_unit hb.canonical
      (fun v hv w hw => apart (ha.within hone v hv) (hb.within hone w hw))
      fun i => eval_eq_of_evaluate?_eq h _
  · rw [evaluate?_eq_some hz, eval_of_asConstant h (vectorAt_of_getElem? first)]
  · have hvalue : ∀ z, z 0 = 1 → a.eval z = k := by
      intro z hz
      obtain ⟨n, hn⟩ := a.exists_below
      have hbelow := hn.mono (Nat.le_add_right n 1)
      have hsize : (entries z (n + 1)).size = n + 1 := Array.size_ofFn
      have hfirst : (entries z (n + 1))[0]? = some 1 := by
        rw [entries, Array.getElem?_ofFn, dif_pos (Nat.succ_pos n), hz]
      have := h (entries z (n + 1)) (by rwa [hsize]) hfirst
      rwa [evaluate?_entries hbelow, Option.some.injEq] at this
    have hconstant : a = .constant k := ha.canonical.eq_constant
      (fun w hw hindex => apart (ha.within hone w hw) hone hindex) hvalue
    rw [hconstant, asConstant?_constant]

/-- Two inputs of a compiled circuit are added, and one is subtracted again: what is left is the
other input.  An input is subtracted from itself, and five is added: what is left is a constant. -/
theorem combinations_canonical_sample :
    let y : LinearCombination Sample.field := ofWire ⟨1, .public, 1⟩
    let x : LinearCombination Sample.field := ofWire ⟨2, .secret, 1⟩
    BuiltFrom (sessionWires 1 Sample.schema.roleAt) (y + x - x) ∧ y + x - x = y ∧
      (x - x + .constant 5).asConstant? = some 5 := by
  obtain ⟨r, hcompilation⟩ := Sample.exists_compilation
  have handles := hcompilation.handles_mem
  have hy : BuiltFrom (K := Sample.field) (sessionWires 1 Sample.schema.roleAt)
      (ofWire ⟨1, .public, 1⟩) := .wire (handles _ (by decide))
  have hx : BuiltFrom (K := Sample.field) (sessionWires 1 Sample.schema.roleAt)
      (ofWire ⟨2, .secret, 1⟩) := .wire (handles _ (by decide))
  obtain ⟨-, -, hequal, hconstant⟩ :=
    combinations_canonical (K := Sample.field) 1 Sample.schema.roleAt
  refine ⟨(hy.add hx).sub hx, (hequal _ _ ((hy.add hx).sub hx) hy).2 fun z hz hz' => ?_,
    (hconstant _ 5 ((hx.sub hx).add (.constant 5))).2 fun z hz first => ?_⟩
  · rw [evaluate?_eq_some hz, evaluate?_eq_some hz', eval_sub, eval_add, add_sub_cancel_right]
  · rw [evaluate?_eq_some hz, eval_add, eval_sub, sub_self, zero_add, eval_constant,
      vectorAt_of_getElem? first, mul_one]

end LinearCombination

end Groth16
