import Groth16.Circuit.ConstraintSystem
import Groth16.Proofs.Field.Vectors

/-!
# What linear combinations and constraints say about a vector

A linear combination stands for a linear form on vectors of wires.  This file shows that the
operations on linear combinations are the operations on linear forms, whatever the normal form does
to their terms, and that the checks on vectors decide the equations.

* `termSum`: the value of a list of terms, before any normal form.
* `eval_add`, `eval_sub`, `eval_scale`, …: each operation read as an operation on values.
* `mem_wires_add`, …: an operation mentions no wire that its operands do not mention, so if all
  wires of the operands are as `P` says, those of the result are (`Within.add`, …).
* `evaluate?_eq_some`: on a vector that is long enough, evaluation gives the value.
* `check_eq_ok_iff`: a vector that is long enough passes the check exactly if it satisfies every
  constraint, and otherwise a violated row is reported.
-/

set_option autoImplicit false

namespace Groth16

variable {K : PrimeField}

namespace LinearCombination

/-! ## Values -/

/-- The value of a list of terms where wire `i` holds `z i`. -/
def termSum (z : Nat → Fp K) (ts : List (Term K)) : Fp K :=
  (ts.map fun t => t.coeff * z t.wire.index).sum

@[simp] theorem termSum_nil (z : Nat → Fp K) : termSum z [] = 0 := rfl

@[simp] theorem termSum_cons (z : Nat → Fp K) (t : Term K) (ts : List (Term K)) :
    termSum z (t :: ts) = t.coeff * z t.wire.index + termSum z ts := by
  rw [termSum, List.map_cons, List.sum_cons, termSum]

@[simp] theorem termSum_append (z : Nat → Fp K) (ts us : List (Term K)) :
    termSum z (ts ++ us) = termSum z ts + termSum z us := by
  rw [termSum, List.map_append, List.sum_append, termSum, termSum]

theorem eval_eq_termSum (a : LinearCombination K) (z : Nat → Fp K) :
    a.eval z = termSum z a.terms := by
  obtain ⟨ts⟩ := a
  induction ts with
  | nil => rfl
  | cons t ts ih =>
    rw [termSum_cons, ← ih]
    rfl

theorem termSum_addTerm (z : Nat → Fp K) (t : Term K) (us : List (Term K)) :
    termSum z (addTerm t us) = t.coeff * z t.wire.index + termSum z us := by
  induction us with
  | nil => rw [addTerm, termSum_cons]
  | cons u us ih =>
    rw [addTerm]
    split
    · rw [termSum_cons]
    · split
      · next same =>
        rw [termSum_cons, termSum_cons, same]
        ring
      · rw [termSum_cons, termSum_cons, ih]
        ring

theorem termSum_filter_ne_zero (z : Nat → Fp K) (ts : List (Term K)) :
    termSum z (ts.filter fun t => t.coeff ≠ 0) = termSum z ts := by
  induction ts with
  | nil => rfl
  | cons t ts ih =>
    by_cases h : t.coeff = 0
    · rw [List.filter_cons_of_neg (by simpa using h), ih, termSum_cons, h]
      ring
    · rw [List.filter_cons_of_pos (by simpa using h), termSum_cons, termSum_cons, ih]

/-- The normal form of a list of terms has the value of the list. -/
theorem eval_ofTerms (ts : List (Term K)) (z : Nat → Fp K) :
    (ofTerms ts).eval z = termSum z ts := by
  rw [eval_eq_termSum, ofTerms, termSum_filter_ne_zero]
  induction ts with
  | nil => rfl
  | cons t ts ih => rw [List.foldr_cons, termSum_addTerm, ih, termSum_cons]

@[simp] theorem eval_zero (z : Nat → Fp K) : (0 : LinearCombination K).eval z = 0 := rfl

@[simp] theorem eval_ofWire (w : Wire) (z : Nat → Fp K) :
    (ofWire w : LinearCombination K).eval z = z w.index := by
  rw [eval_eq_termSum, ofWire, termSum_cons, termSum_nil]
  ring

@[simp] theorem eval_constant (k : Fp K) (z : Nat → Fp K) : (constant k).eval z = k * z 0 := by
  rw [constant, eval_ofTerms, termSum_cons, termSum_nil, Wire.one]
  ring

@[simp] theorem eval_add (a b : LinearCombination K) (z : Nat → Fp K) :
    (a + b).eval z = a.eval z + b.eval z := by
  show (ofTerms (a.terms ++ b.terms)).eval z = _
  rw [eval_ofTerms, termSum_append, eval_eq_termSum, eval_eq_termSum]

@[simp] theorem eval_neg (a : LinearCombination K) (z : Nat → Fp K) :
    (-a).eval z = -a.eval z := by
  show eval ⟨a.terms.map fun t => ⟨-t.coeff, t.wire⟩⟩ z = _
  rw [eval_eq_termSum, eval_eq_termSum]
  induction a.terms with
  | nil => simp
  | cons t ts ih =>
    rw [List.map_cons, termSum_cons, termSum_cons, ih]
    ring

@[simp] theorem eval_sub (a b : LinearCombination K) (z : Nat → Fp K) :
    (a - b).eval z = a.eval z - b.eval z := by
  show (a + -b).eval z = _
  rw [eval_add, eval_neg, sub_eq_add_neg]

@[simp] theorem eval_scale (a : LinearCombination K) (k : Fp K) (z : Nat → Fp K) :
    (a.scale k).eval z = k * a.eval z := by
  rw [scale]
  split
  · next h => rw [h, eval_zero, zero_mul]
  · rw [eval_eq_termSum, eval_eq_termSum]
    induction a.terms with
    | nil => simp
    | cons t ts ih =>
      rw [List.map_cons, termSum_cons, termSum_cons, ih]
      ring

theorem eval_of_isEmpty {a : LinearCombination K} (h : a.isEmpty = true) (z : Nat → Fp K) :
    a.eval z = 0 := by
  have hnil : a.terms = [] := List.isEmpty_iff.1 h
  rw [eval_eq_termSum, hnil, termSum_nil]

/-- A combination that passes for a constant has that value wherever the one-wire holds one. -/
theorem eval_of_asConstant {a : LinearCombination K} {k : Fp K} (h : a.asConstant? = some k)
    {z : Nat → Fp K} (one : z 0 = 1) : a.eval z = k := by
  rw [eval_eq_termSum]
  rw [asConstant?] at h
  split at h
  · next hnil =>
    rw [hnil, termSum_nil]
    exact Option.some.inj h
  · next t hone =>
    split at h
    · next hidx =>
      rw [hone, termSum_cons, termSum_nil, hidx, one, Option.some.inj h]
      ring
    · cases h
  · cases h

/-- The value depends only on the wires that are mentioned. -/
theorem eval_congr {a : LinearCombination K} {z z' : Nat → Fp K}
    (h : ∀ w ∈ a.wires, z w.index = z' w.index) : a.eval z = a.eval z' := by
  rw [eval_eq_termSum, eval_eq_termSum, termSum, termSum]
  congr 1
  refine List.map_congr_left fun t ht => ?_
  rw [h t.wire (List.mem_map_of_mem ht)]

/-! ## Wires -/

theorem mem_wires_addTerm {t : Term K} {us : List (Term K)} {w : Wire}
    (h : w ∈ (addTerm t us).map (·.wire)) : w = t.wire ∨ w ∈ us.map (·.wire) := by
  induction us with
  | nil => exact .inl (by simpa [addTerm] using h)
  | cons u us ih =>
    rw [addTerm] at h
    split at h
    · simpa using h
    · split at h
      · rw [List.map_cons, List.mem_cons] at h
        rw [List.map_cons, List.mem_cons]
        tauto
      · rw [List.map_cons, List.mem_cons] at h
        rw [List.map_cons, List.mem_cons]
        rcases h with h | h
        · exact .inr (.inl h)
        · exact (ih h).imp_right .inr

theorem mem_wires_ofTerms {ts : List (Term K)} {w : Wire} (h : w ∈ (ofTerms ts).wires) :
    w ∈ ts.map (·.wire) := by
  have hsum : w ∈ (ts.foldr addTerm []).map (·.wire) := by
    obtain ⟨t, ht, rfl⟩ := List.mem_map.1 h
    exact List.mem_map_of_mem (List.mem_of_mem_filter ht)
  clear h
  induction ts with
  | nil => simp at hsum
  | cons t ts ih =>
    rw [List.map_cons, List.mem_cons]
    exact (mem_wires_addTerm hsum).imp_right ih

@[simp] theorem wires_zero : (0 : LinearCombination K).wires = [] := rfl

@[simp] theorem wires_ofWire (w : Wire) : (ofWire w : LinearCombination K).wires = [w] := rfl

theorem mem_wires_constant {k : Fp K} {w : Wire} (h : w ∈ (constant k).wires) : w = .one := by
  simpa using mem_wires_ofTerms h

theorem mem_wires_add {a b : LinearCombination K} {w : Wire} (h : w ∈ (a + b).wires) :
    w ∈ a.wires ∨ w ∈ b.wires := by
  have := mem_wires_ofTerms h
  rwa [List.map_append, List.mem_append] at this

@[simp] theorem wires_neg (a : LinearCombination K) : (-a).wires = a.wires := by
  show (a.terms.map fun t => (⟨-t.coeff, t.wire⟩ : Term K)).map (·.wire) = a.terms.map (·.wire)
  rw [List.map_map]
  rfl

theorem mem_wires_sub {a b : LinearCombination K} {w : Wire} (h : w ∈ (a - b).wires) :
    w ∈ a.wires ∨ w ∈ b.wires := by
  simpa using mem_wires_add h

theorem mem_wires_scale {a : LinearCombination K} {k : Fp K} {w : Wire}
    (h : w ∈ (a.scale k).wires) : w ∈ a.wires := by
  rw [scale] at h
  split at h
  · simp at h
  · simpa [wires] using h

section
variable {P : Wire → Prop} {a b : LinearCombination K}

/-- All wires that a combination mentions are as `P` says. -/
def Within (P : Wire → Prop) (a : LinearCombination K) : Prop := ∀ w ∈ a.wires, P w

theorem within_zero : (0 : LinearCombination K).Within P := nofun

theorem within_ofWire {w : Wire} (h : P w) : (ofWire w : LinearCombination K).Within P := by
  intro v hv
  rwa [List.mem_singleton.1 hv]

theorem within_constant (one : P .one) (k : Fp K) : (constant k).Within P := fun _ hw =>
  mem_wires_constant hw ▸ one

theorem Within.add (ha : a.Within P) (hb : b.Within P) : (a + b).Within P := fun w hw =>
  (mem_wires_add hw).elim (ha w) (hb w)

theorem Within.sub (ha : a.Within P) (hb : b.Within P) : (a - b).Within P := fun w hw =>
  (mem_wires_sub hw).elim (ha w) (hb w)

theorem Within.neg (ha : a.Within P) : (-a).Within P := fun w hw => ha w (by rwa [← wires_neg])

theorem Within.scale (ha : a.Within P) (k : Fp K) : (a.scale k).Within P := fun w hw =>
  ha w (mem_wires_scale hw)

end

/-! ## Vectors -/

/-- Every wire that is mentioned lies before position `n`. -/
def Below (n : Nat) (a : LinearCombination K) : Prop := ∀ w ∈ a.wires, w.index < n

theorem Below.mono {a : LinearCombination K} {m n : Nat} (h : a.Below m) (le : m ≤ n) :
    a.Below n := fun w hw => Nat.lt_of_lt_of_le (h w hw) le

end LinearCombination

namespace LinearCombination

/-- On a vector that holds all wires that are mentioned, evaluation gives the value. -/
theorem evaluate?_eq_some {a : LinearCombination K} {z : Array (Fp K)} (h : a.Below z.size) :
    a.evaluate? z = some (a.eval (vectorAt z)) := by
  obtain ⟨ts⟩ := a
  show evaluateTerms? z ts = _
  induction ts with
  | nil => rfl
  | cons t ts ih =>
    have hhead : t.wire.index < z.size := h t.wire List.mem_cons_self
    have htail : Below z.size ⟨ts⟩ := fun w hw => h w (List.mem_cons_of_mem _ hw)
    rw [evaluateTerms?, getElem?_eq_vectorAt hhead, ih htail, eval_eq_termSum, eval_eq_termSum,
      termSum_cons]
    rfl

end LinearCombination

/-! ## Constraints -/

namespace Constraint

/-- Every wire that a constraint mentions lies before position `n`. -/
structure Below (n : Nat) (r : Constraint K) : Prop where
  /-- The wires of the first factor do. -/
  a : r.a.Below n
  /-- The wires of the second factor do. -/
  b : r.b.Below n
  /-- The wires of the product do. -/
  c : r.c.Below n

theorem Below.mono {r : Constraint K} {m n : Nat} (h : r.Below m) (le : m ≤ n) : r.Below n :=
  ⟨h.a.mono le, h.b.mono le, h.c.mono le⟩

/-- The wire is mentioned by one of the three combinations. -/
def Mentions (r : Constraint K) (i : Nat) : Prop :=
  ∃ w ∈ r.a.wires ++ r.b.wires ++ r.c.wires, w.index = i

instance (r : Constraint K) (z : Nat → Fp K) : Decidable (r.Holds z) :=
  inferInstanceAs (Decidable (_ = _))

theorem values?_eq_some {r : Constraint K} {z : Array (Fp K)} (h : r.Below z.size) :
    r.values? z = some (r.a.eval (vectorAt z), r.b.eval (vectorAt z), r.c.eval (vectorAt z)) := by
  rw [values?, LinearCombination.evaluate?_eq_some h.a, LinearCombination.evaluate?_eq_some h.b,
    LinearCombination.evaluate?_eq_some h.c]
  rfl

theorem holds?_eq_some {r : Constraint K} {z : Array (Fp K)} (h : r.Below z.size) :
    r.holds? z = some (decide (r.Holds (vectorAt z))) := by
  rw [holds?, values?_eq_some h]
  rfl

end Constraint

namespace ConstraintSystem

theorem checkFrom_eq_ok {z : Array (Fp K)} {rs : List (Constraint K)}
    (below : ∀ r ∈ rs, r.Below z.size) (holds : ∀ r ∈ rs, r.Holds (vectorAt z)) (index : Nat) :
    checkFrom z index rs = .ok () := by
  induction rs generalizing index with
  | nil => rfl
  | cons r rs ih =>
    rw [List.forall_mem_cons] at below holds
    rw [checkFrom, Constraint.holds?_eq_some below.1, decide_eq_true holds.1]
    exact ih below.2 holds.2 _

theorem checkFrom_eq_report {z : Array (Fp K)} {rs : List (Constraint K)}
    (below : ∀ r ∈ rs, r.Below z.size) (violated : ∃ r ∈ rs, ¬ r.Holds (vectorAt z))
    (index : Nat) : ∃ u, checkFrom z index rs = .report u := by
  induction rs generalizing index with
  | nil => simp at violated
  | cons r rs ih =>
    rw [List.forall_mem_cons] at below
    rw [checkFrom, Constraint.holds?_eq_some below.1]
    by_cases hr : r.Holds (vectorAt z)
    · rw [decide_eq_true hr]
      refine ih below.2 ?_ _
      obtain ⟨x, hx, hnot⟩ := violated
      rcases List.mem_cons.1 hx with rfl | hx
      · exact absurd hr hnot
      · exact ⟨x, hx, hnot⟩
    · rw [decide_eq_false hr]
      exact ⟨⟨index, r.tag⟩, rfl⟩

variable {s : ConstraintSystem K} {z : Array (Fp K)}

/-- On a vector that is long enough the check decides satisfaction. -/
theorem check_eq_ok_iff (below : ∀ r ∈ s.constraints.toList, r.Below z.size) :
    s.check z = .ok () ↔ s.Satisfies (vectorAt z) := by
  refine ⟨fun h => ?_, fun h => checkFrom_eq_ok below h 0⟩
  by_contra hnot
  rw [Satisfies] at hnot
  push Not at hnot
  obtain ⟨u, hu⟩ := checkFrom_eq_report below hnot 0
  rw [check, hu] at h
  cases h

/-- A vector that is long enough and violates a constraint has a violated row reported. -/
theorem check_eq_report (below : ∀ r ∈ s.constraints.toList, r.Below z.size)
    (h : ¬ s.Satisfies (vectorAt z)) : ∃ u, s.check z = .report u := by
  rw [Satisfies] at h
  push Not at h
  exact checkFrom_eq_report below h 0

end ConstraintSystem

end Groth16
