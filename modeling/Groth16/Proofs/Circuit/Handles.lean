import Groth16.Proofs.Circuit.Evaluation

/-!
# Which handles a linear combination keeps

The normal form of a linear combination has one term for an index, whatever handles with this index
were added.  The coefficients are added, and the handle is that of the first of the terms, if
the sum is not zero; the others leave no trace.

* `unit`: the vector that is one at an index, on which a combination has its coefficient there.
* `handle?`: the handle that a combination has for an index.
* `handle?_ofTerms`, `handle?_add`, …: the handle that the operations keep.
* `Ascending.mem_iff`: in the normal form no other handles are mentioned.
-/

set_option autoImplicit false

namespace Groth16

variable {K : PrimeField}

namespace LinearCombination

/-! ## Coefficients -/

/-- The vector that is one at an index and zero elsewhere. -/
def unit (i : Nat) : Nat → Fp K := fun j => if j = i then 1 else 0

theorem termSum_unit_cons (i : Nat) (t : Term K) (ts : List (Term K)) :
    termSum (unit i) (t :: ts) =
      (if t.wire.index = i then t.coeff else 0) + termSum (unit i) ts := by
  rw [termSum_cons, unit, mul_ite, mul_one, mul_zero]

theorem termSum_unit_of_forall_ne {i : Nat} {ts : List (Term K)}
    (h : ∀ t ∈ ts, t.wire.index ≠ i) : termSum (unit i) ts = 0 := by
  induction ts with
  | nil => rfl
  | cons t ts ih =>
    rw [List.forall_mem_cons] at h
    rw [termSum_unit_cons, if_neg h.1, ih h.2, add_zero]

/-! ## Handles of terms -/

/-- The first handle with an index among the handles of terms. -/
def firstHandle? (i : Nat) (ts : List (Term K)) : Option Wire :=
  (ts.map (·.wire)).find? (·.index = i)

theorem firstHandle?_cons (i : Nat) (t : Term K) (ts : List (Term K)) :
    firstHandle? i (t :: ts) =
      if t.wire.index = i then some t.wire else firstHandle? i ts := by
  rw [firstHandle?, List.map_cons, List.find?_cons]
  by_cases h : t.wire.index = i
  · rw [if_pos h, decide_eq_true h]
  · rw [if_neg h, decide_eq_false h, firstHandle?]

theorem firstHandle?_append (i : Nat) (ts us : List (Term K)) :
    firstHandle? i (ts ++ us) = (firstHandle? i ts).or (firstHandle? i us) := by
  rw [firstHandle?, List.map_append, List.find?_append, firstHandle?, firstHandle?]

theorem firstHandle?_of_forall_ne {i : Nat} {ts : List (Term K)}
    (h : ∀ t ∈ ts, t.wire.index ≠ i) : firstHandle? i ts = none := by
  rw [firstHandle?, List.find?_eq_none]
  intro w hw
  obtain ⟨t, ht, rfl⟩ := List.mem_map.1 hw
  simpa using h t ht

theorem index_of_firstHandle? {i : Nat} {ts : List (Term K)} {w : Wire}
    (h : firstHandle? i ts = some w) : w ∈ ts.map (·.wire) ∧ w.index = i :=
  ⟨List.mem_of_find?_eq_some h, by simpa using List.find?_some h⟩

/-- Terms with a coefficient at an index have a handle there. -/
theorem exists_firstHandle? {i : Nat} {ts : List (Term K)} (h : termSum (unit i) ts ≠ 0) :
    ∃ w, firstHandle? i ts = some w := by
  by_contra hnone
  rw [not_exists] at hnone
  have habsent := List.find?_eq_none.1 (Option.eq_none_iff_forall_ne_some.2 hnone)
  refine h (termSum_unit_of_forall_ne fun t ht => ?_)
  simpa using habsent t.wire (List.mem_map_of_mem ht)

/-- Where a term is added to terms with its index, it is its handle that is kept. -/
theorem firstHandle?_addTerm (i : Nat) (t : Term K) (us : List (Term K)) :
    firstHandle? i (addTerm t us) = firstHandle? i (t :: us) := by
  induction us with
  | nil => rfl
  | cons u us ih =>
    rw [addTerm]
    split
    · rfl
    split
    · next same =>
      rw [firstHandle?_cons, firstHandle?_cons, firstHandle?_cons, ← same]
      split
      · rfl
      · rfl
    · next different =>
      rw [firstHandle?_cons, ih, firstHandle?_cons, firstHandle?_cons, firstHandle?_cons]
      by_cases hu : u.wire.index = i
      · rw [if_pos hu, if_pos hu, if_neg (by rw [← hu]; exact different)]
      · rw [if_neg hu, if_neg hu]

theorem firstHandle?_foldr_addTerm (i : Nat) (ts : List (Term K)) :
    firstHandle? i (ts.foldr addTerm []) = firstHandle? i ts := by
  induction ts with
  | nil => rfl
  | cons t ts ih =>
    rw [List.foldr_cons, firstHandle?_addTerm, firstHandle?_cons, ih, firstHandle?_cons]

/-! ## Ascending terms -/

/-- The indices of the terms ascend. -/
def Ascending (ts : List (Term K)) : Prop := ts.Pairwise fun t u => t.wire.index < u.wire.index

theorem index_of_mem_addTerm {t v : Term K} {us : List (Term K)} (h : v ∈ addTerm t us) :
    v.wire.index = t.wire.index ∨ v ∈ us := by
  induction us with
  | nil => exact .inl (congrArg (·.wire.index) (List.mem_singleton.1 h))
  | cons u us ih =>
    rw [addTerm] at h
    split at h
    · exact (List.mem_cons.1 h).imp_left fun hv => by rw [hv]
    split at h
    · rcases List.mem_cons.1 h with rfl | h
      · exact .inl rfl
      · exact .inr (List.mem_cons_of_mem _ h)
    · rcases List.mem_cons.1 h with rfl | h
      · exact .inr List.mem_cons_self
      · exact (ih h).imp_right (List.mem_cons_of_mem _)

theorem Ascending.addTerm {us : List (Term K)} (h : Ascending us) (t : Term K) :
    Ascending (addTerm t us) := by
  induction us with
  | nil => exact List.pairwise_singleton _ _
  | cons u us ih =>
    obtain ⟨first, rest⟩ := List.pairwise_cons.1 h
    rw [LinearCombination.addTerm]
    split
    · next less =>
      refine List.pairwise_cons.2 ⟨fun v hv => ?_, h⟩
      rcases List.mem_cons.1 hv with rfl | hv
      · exact less
      · exact less.trans (first v hv)
    split
    · next same => exact List.pairwise_cons.2 ⟨fun v hv => same ▸ first v hv, rest⟩
    · next less different =>
      refine List.pairwise_cons.2 ⟨fun v hv => ?_, ih rest⟩
      rcases index_of_mem_addTerm hv with hindex | hv
      · omega
      · exact first v hv

theorem ascending_foldr_addTerm (ts : List (Term K)) : Ascending (ts.foldr addTerm []) := by
  induction ts with
  | nil => exact List.Pairwise.nil
  | cons t ts ih => exact ih.addTerm t

/-- Of ascending terms, those without coefficient are dropped. -/
theorem Ascending.firstHandle?_filter {us : List (Term K)} (h : Ascending us) (i : Nat) :
    firstHandle? i (us.filter fun t => t.coeff ≠ 0) =
      if termSum (unit i) us = 0 then none else firstHandle? i us := by
  induction us with
  | nil => exact (if_pos rfl).symm
  | cons u us ih =>
    obtain ⟨first, rest⟩ := List.pairwise_cons.1 h
    rw [termSum_unit_cons, firstHandle?_cons]
    by_cases hu : u.wire.index = i
    · -- The indices behind it are larger, so that this term is the only one with its index.
      have habsent : ∀ t ∈ us, t.wire.index ≠ i := fun t ht => by
        have := first t ht
        omega
      rw [if_pos hu, if_pos hu, termSum_unit_of_forall_ne habsent, add_zero]
      by_cases hzero : u.coeff = 0
      · rw [if_pos hzero, List.filter_cons_of_neg (by simpa using hzero)]
        exact firstHandle?_of_forall_ne fun t ht => habsent t (List.mem_of_mem_filter ht)
      · rw [if_neg hzero, List.filter_cons_of_pos (by simpa using hzero), firstHandle?_cons,
          if_pos hu]
    · rw [if_neg hu, if_neg hu, zero_add, ← ih rest]
      by_cases hzero : u.coeff = 0
      · rw [List.filter_cons_of_neg (by simpa using hzero)]
      · rw [List.filter_cons_of_pos (by simpa using hzero), firstHandle?_cons, if_neg hu]

theorem Ascending.mem_iff {us : List (Term K)} (h : Ascending us) {w : Wire} :
    w ∈ us.map (·.wire) ↔ firstHandle? w.index us = some w := by
  refine ⟨fun hw => ?_, fun hw => (index_of_firstHandle? hw).1⟩
  induction us with
  | nil => cases hw
  | cons u us ih =>
    obtain ⟨first, rest⟩ := List.pairwise_cons.1 h
    rw [firstHandle?_cons]
    rcases List.mem_cons.1 hw with rfl | hw
    · exact if_pos rfl
    · obtain ⟨t, ht, rfl⟩ := List.mem_map.1 hw
      rw [if_neg (first t ht).ne, ih rest hw]

/-! ## Handles of combinations -/

/-- The handle that a combination has for an index. -/
def handle? (a : LinearCombination K) (i : Nat) : Option Wire := firstHandle? i a.terms

theorem ascending_ofTerms (ts : List (Term K)) : Ascending (ofTerms ts).terms :=
  (ascending_foldr_addTerm ts).sublist List.filter_sublist

/-- **The first handle is kept** of those that have an index, if there is a coefficient. -/
theorem handle?_ofTerms (ts : List (Term K)) (i : Nat) :
    (ofTerms ts).handle? i =
      if termSum (unit i) ts = 0 then none else firstHandle? i ts := by
  have hsum := eval_ofTerms ts (unit i)
  rw [eval_eq_termSum, ofTerms, termSum_filter_ne_zero] at hsum
  rw [handle?, ofTerms, (ascending_foldr_addTerm ts).firstHandle?_filter,
    firstHandle?_foldr_addTerm, hsum]

theorem handle?_ofWire (w : Wire) (i : Nat) :
    (ofWire w : LinearCombination K).handle? i = if w.index = i then some w else none :=
  firstHandle?_cons i ⟨1, w⟩ []

theorem handle?_add (a b : LinearCombination K) (i : Nat) :
    (a + b).handle? i =
      if (a + b).eval (unit i) = 0 then none else (a.handle? i).or (b.handle? i) := by
  show (ofTerms (a.terms ++ b.terms)).handle? i = _
  rw [handle?_ofTerms, firstHandle?_append, termSum_append, eval_add, eval_eq_termSum,
    eval_eq_termSum, handle?, handle?]

theorem handle?_neg (a : LinearCombination K) (i : Nat) : (-a).handle? i = a.handle? i := by
  rw [handle?, handle?, firstHandle?, firstHandle?]
  exact congrArg (List.find? _) (wires_neg a)

theorem handle?_sub (a b : LinearCombination K) (i : Nat) :
    (a - b).handle? i =
      if (a - b).eval (unit i) = 0 then none else (a.handle? i).or (b.handle? i) := by
  show (a + -b).handle? i = if (a + -b).eval (unit i) = 0 then _ else _
  rw [handle?_add, handle?_neg]

theorem handle?_scale (a : LinearCombination K) (k : Fp K) (i : Nat) :
    (a.scale k).handle? i = if k = 0 then none else a.handle? i := by
  rw [scale]
  split
  · rfl
  · rw [handle?, handle?, firstHandle?, firstHandle?, List.map_map]
    rfl

theorem ascending_neg {a : LinearCombination K} (h : Ascending a.terms) :
    Ascending (-a).terms := List.pairwise_map.2 h

theorem ascending_scale {a : LinearCombination K} (h : Ascending a.terms) (k : Fp K) :
    Ascending (a.scale k).terms := by
  rw [scale]
  split
  · exact List.Pairwise.nil
  · exact List.pairwise_map.2 h

/-- A combination with a coefficient at an index has a handle there. -/
theorem exists_handle? {a : LinearCombination K} {i : Nat} (h : a.eval (unit i) ≠ 0) :
    ∃ w, a.handle? i = some w := by
  rw [eval_eq_termSum] at h
  exact exists_firstHandle? h

end LinearCombination

end Groth16
