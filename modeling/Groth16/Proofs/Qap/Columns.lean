import Groth16.Qap
import Groth16.Proofs.Circuit.Evaluation
import Groth16.Proofs.Domain.Interpolation
import Groth16.Proofs.Outcome

/-!
# Columns at a point

The setup evaluates the polynomials of all wires at one point, column by column.  Weighted with a
vector of wires and added up, these values are those of a single polynomial: the one that has the
values of the rows on the vector at the points of the domain.

* `Qap.factorsA`, `factorsB`, `products`: the values of the rows on a vector of wires, those of the
  instance rows included.
* `Domain.Interpolates`: a polynomial of degree below the size of the domain has the values of a
  list at the points of the domain.
* `Qap.Evaluated`: what the polynomials of the wires come to at a point.
* `Qap.evaluateAt_eq_ok`: the columns that are evaluated are of this kind.
* `Qap.evaluateAt_ok`: outside of the domain, the columns of a system that mentions only its wires
  are evaluated.
-/

set_option autoImplicit false

namespace Groth16

variable {K : PrimeField}

open Finset Polynomial

/-- The polynomial has the values of the list at the points of the domain, and zero at those for
which the list has no value. -/
structure Domain.Interpolates (d : Domain K) (values : List (Fp K)) (P : (Fp K)[X]) : Prop where
  /-- The degree is below the size of the domain. -/
  degree_lt : P.degree < d.size
  /-- The values are those of the list. -/
  eval_root : ∀ i < d.size, P.eval (d.root ^ i) = listAt values i

/-! ## Sums over lists -/

/-- A sum over two lists, one behind the other. -/
theorem sum_listAt_append (xs ys : List (Fp K)) (f : Nat → Fp K) {n : Nat}
    (h : xs.length + ys.length ≤ n) :
    ∑ i ∈ range n, listAt (xs ++ ys) i * f i =
      ∑ i ∈ range xs.length, listAt xs i * f i +
        ∑ i ∈ range ys.length, listAt ys i * f (xs.length + i) := by
  obtain ⟨k, rfl⟩ := Nat.le.dest h
  have hleft : ∀ i ∈ range xs.length, listAt (xs ++ ys) i * f i = listAt xs i * f i := by
    intro i hi
    rw [listAt_append_left (mem_range.1 hi)]
  have hright : ∀ i ∈ range ys.length, listAt (xs ++ ys) (xs.length + i) * f (xs.length + i) =
      listAt ys i * f (xs.length + i) := by
    intro i _
    rw [listAt_append_right]
  have hrest : ∀ i ∈ range k, listAt (xs ++ ys) (xs.length + ys.length + i) *
      f (xs.length + ys.length + i) = 0 := by
    intro i _
    rw [listAt_of_length_le (by rw [List.length_append]; omega), zero_mul]
  rw [sum_range_add, sum_range_add, sum_congr rfl hleft, sum_congr rfl hright,
    sum_eq_zero hrest, add_zero]

/-- A sum over a list that the values behind its end do not change. -/
theorem sum_listAt_of_le (xs : List (Fp K)) (f : Nat → Fp K) {n : Nat} (h : xs.length ≤ n) :
    ∑ i ∈ range n, listAt xs i * f i = ∑ i ∈ range xs.length, listAt xs i * f i := by
  have happend := sum_listAt_append xs [] f (n := n) h
  rwa [List.append_nil, List.length_nil, range_zero, sum_empty, add_zero] at happend

namespace Qap

/-! ## Values of rows -/

/-- The values of one part of the constraints on a vector of wires. -/
def rowValues (part : Constraint K → LinearCombination K) (s : ConstraintSystem K)
    (z : Nat → Fp K) : List (Fp K) :=
  s.constraints.toList.map fun c => (part c).eval z

/-- The first factors of all rows, those of the instance rows included. -/
def factorsA (s : ConstraintSystem K) (z : Nat → Fp K) : List (Fp K) :=
  rowValues (·.a) s z ++ (List.range s.numInstance).map z

/-- The second factors of the rows. -/
def factorsB (s : ConstraintSystem K) (z : Nat → Fp K) : List (Fp K) := rowValues (·.b) s z

/-- The right sides of the rows. -/
def products (s : ConstraintSystem K) (z : Nat → Fp K) : List (Fp K) := rowValues (·.c) s z

@[simp] theorem length_rowValues (part : Constraint K → LinearCombination K)
    (s : ConstraintSystem K) (z : Nat → Fp K) : (rowValues part s z).length = s.numConstraints := by
  rw [rowValues, List.length_map]
  rfl

@[simp] theorem length_factorsA (s : ConstraintSystem K) (z : Nat → Fp K) :
    (factorsA s z).length = numRows s := by
  rw [factorsA, List.length_append, length_rowValues, List.length_map, List.length_range]
  rfl

theorem numConstraints_le_numRows (s : ConstraintSystem K) : s.numConstraints ≤ numRows s := by
  rw [numRows]
  omega

/-! ## One column -/

section
variable {acc u : Array (Fp K)} (z : Nat → Fp K)

theorem sum_addAt? {i : Nat} {x : Fp K} (h : addAt? acc i x = some u) :
    u.size = acc.size ∧ ∑ j ∈ range u.size, vectorAt u j * z j =
      ∑ j ∈ range acc.size, vectorAt acc j * z j + x * z i := by
  rw [addAt?] at h
  by_cases hi : i < acc.size
  · rw [getElem?_eq_vectorAt hi, Option.map_some, Option.some.injEq] at h
    subst h
    have hterm : ∀ j ∈ range acc.size,
        vectorAt (acc.setIfInBounds i (vectorAt acc i + x)) j * z j =
          vectorAt acc j * z j + if j = i then x * z i else 0 := by
      intro j _
      rw [vectorAt_setIfInBounds hi]
      split
      · next hj => rw [hj, add_mul]
      · rw [add_zero]
    rw [Array.size_setIfInBounds]
    refine ⟨rfl, ?_⟩
    rw [sum_congr rfl hterm, sum_add_distrib, sum_ite_eq', if_pos (mem_range.2 hi)]
  · rw [Array.getElem?_eq_none (by omega)] at h
    cases h

/-- Adding a multiple of a combination adds the multiple of its value. -/
theorem sum_addTerms? {weight : Fp K} {a : LinearCombination K}
    (h : addTerms? weight acc a = some u) :
    u.size = acc.size ∧ ∑ j ∈ range u.size, vectorAt u j * z j =
      ∑ j ∈ range acc.size, vectorAt acc j * z j + weight * a.eval z := by
  obtain ⟨ts⟩ := a
  rw [addTerms?] at h
  induction ts generalizing acc with
  | nil =>
    obtain rfl : acc = u := Option.some.inj h
    exact ⟨rfl, by simp [LinearCombination.eval]⟩
  | cons t ts ih =>
    rw [List.foldlM_cons, Option.bind_eq_bind, Option.bind_eq_some_iff] at h
    obtain ⟨acc', hhead, htail⟩ := h
    obtain ⟨hsize, hsum⟩ := sum_addAt? z hhead
    obtain ⟨hsize', hsum'⟩ := ih htail
    refine ⟨hsize'.trans hsize, ?_⟩
    have hcons : LinearCombination.eval ⟨t :: ts⟩ z =
        t.coeff * z t.wire.index + LinearCombination.eval ⟨ts⟩ z := rfl
    rw [hsum', hsum, hcons]
    ring

theorem sum_foldlM_addTerms? {part : Constraint K → LinearCombination K}
    {rows : List (Constraint K)} {ls : List (Fp K)}
    (h : (rows.zip ls).foldlM (fun acc r => addTerms? r.2 acc (part r.1)) acc = some u) :
    u.size = acc.size ∧ ∑ j ∈ range u.size, vectorAt u j * z j =
      ∑ j ∈ range acc.size, vectorAt acc j * z j +
        ∑ i ∈ range rows.length, listAt (rows.map fun c => (part c).eval z) i * listAt ls i := by
  induction rows generalizing acc ls with
  | nil =>
    obtain rfl : acc = u := Option.some.inj h
    exact ⟨rfl, by simp⟩
  | cons c rows ih =>
    cases ls with
    | nil =>
      obtain rfl : acc = u := Option.some.inj h
      exact ⟨rfl, by simp⟩
    | cons l ls =>
      rw [List.zip_cons_cons, List.foldlM_cons, Option.bind_eq_bind, Option.bind_eq_some_iff] at h
      obtain ⟨acc', hhead, htail⟩ := h
      obtain ⟨hsize, hsum⟩ := sum_addTerms? z hhead
      obtain ⟨hsize', hsum'⟩ := ih htail
      refine ⟨hsize'.trans hsize, ?_⟩
      rw [hsum', hsum, List.length_cons, sum_range_succ']
      simp only [List.map_cons, listAt_cons_succ, listAt_cons_zero]
      ring

/-- A column, weighted with a vector of wires, is the sum of the values of the rows times their
Lagrange values. -/
theorem sum_column? {part : Constraint K → LinearCombination K} {n : Nat}
    {rows : List (Constraint K)} {ls : List (Fp K)} (h : column? part n rows ls = some u) :
    u.size = n ∧ ∑ j ∈ range n, vectorAt u j * z j =
      ∑ i ∈ range rows.length, listAt (rows.map fun c => (part c).eval z) i * listAt ls i := by
  obtain ⟨hsize, hsum⟩ := sum_foldlM_addTerms? z h
  rw [Array.size_replicate] at hsize hsum
  have hzero : ∀ j, vectorAt (Array.replicate n (0 : Fp K)) j = 0 := by
    intro j
    rw [vectorAt, Array.getD_eq_getD_getElem?, Array.getElem?_replicate]
    split
    · rfl
    · rfl
  simp only [hzero, zero_mul, sum_const_zero, zero_add] at hsum
  rw [hsize] at hsum
  exact ⟨hsize, hsum⟩

theorem sum_foldlM_addAt? {ls : List (Fp K)} {k : Nat}
    (h : (ls.zipIdx k).foldlM (fun acc l => addAt? acc l.2 l.1) acc = some u) :
    u.size = acc.size ∧ ∑ j ∈ range u.size, vectorAt u j * z j =
      ∑ j ∈ range acc.size, vectorAt acc j * z j +
        ∑ i ∈ range ls.length, z (k + i) * listAt ls i := by
  induction ls generalizing k acc with
  | nil =>
    obtain rfl : acc = u := Option.some.inj h
    exact ⟨rfl, by simp⟩
  | cons l ls ih =>
    rw [List.zipIdx_cons, List.foldlM_cons, Option.bind_eq_bind, Option.bind_eq_some_iff] at h
    obtain ⟨acc', hhead, htail⟩ := h
    obtain ⟨hsize, hsum⟩ := sum_addAt? z hhead
    obtain ⟨hsize', hsum'⟩ := ih htail
    refine ⟨hsize'.trans hsize, ?_⟩
    rw [hsum', hsum, List.length_cons, sum_range_succ']
    simp only [listAt_cons_succ, listAt_cons_zero, Nat.add_zero, Nat.add_right_comm k 1,
      Nat.add_assoc]
    ring

/-- The instance rows add the wires times their Lagrange values. -/
theorem sum_addInstance? {ls : List (Fp K)} (h : addInstance? acc ls = some u) :
    u.size = acc.size ∧ ∑ j ∈ range u.size, vectorAt u j * z j =
      ∑ j ∈ range acc.size, vectorAt acc j * z j + ∑ i ∈ range ls.length, z i * listAt ls i := by
  simpa only [Nat.zero_add] using sum_foldlM_addAt? z h

end

/-! ## All columns -/

/-- What the polynomials of the wires come to at `τ`: weighted with a vector of wires, they have the
values of the polynomials that interpolate the rows on this vector. -/
structure Evaluated (s : ConstraintSystem K) (d : Domain K) (tau : Fp K) (q : Evaluations K) :
    Prop where
  /-- There is a point for every row. -/
  numRows_le : numRows s ≤ d.size
  /-- The point is outside of the domain. -/
  outside : tau ^ d.size ≠ 1
  /-- There is an entry for every wire. -/
  size_u : q.u.size = s.numWires
  /-- There is an entry for every wire. -/
  size_v : q.v.size = s.numWires
  /-- There is an entry for every wire. -/
  size_w : q.w.size = s.numWires
  /-- The first factors. -/
  sum_u : ∀ (z : Nat → Fp K) (P : (Fp K)[X]), d.Interpolates (factorsA s z) P →
    ∑ i ∈ range s.numWires, vectorAt q.u i * z i = P.eval tau
  /-- The second factors. -/
  sum_v : ∀ (z : Nat → Fp K) (P : (Fp K)[X]), d.Interpolates (factorsB s z) P →
    ∑ i ∈ range s.numWires, vectorAt q.v i * z i = P.eval tau
  /-- The products. -/
  sum_w : ∀ (z : Nat → Fp K) (P : (Fp K)[X]), d.Interpolates (products s z) P →
    ∑ i ∈ range s.numWires, vectorAt q.w i * z i = P.eval tau
  /-- The vanishing polynomial. -/
  vanishing : q.vanishing = tau ^ d.size - 1

section
variable [prime : Fact K.modulus.Prime] {s : ConstraintSystem K} {d : Domain K} {tau : Fp K}
  {q : Evaluations K}

omit prime in
/-- What an evaluation consists of. -/
theorem evaluateAt_parts (h : evaluateAt s d tau = .ok q) :
    ∃ ls u, d.lagrangeAt tau = .ok ls ∧ numRows s ≤ ls.length ∧
      column? (·.a) s.numWires s.constraints.toList ls = some u ∧
      addInstance? u ((ls.drop s.numConstraints).take s.numInstance) = some q.u ∧
      column? (·.b) s.numWires s.constraints.toList ls = some q.v ∧
      column? (·.c) s.numWires s.constraints.toList ls = some q.w ∧
      q.vanishing = d.vanishingAt tau := by
  obtain ⟨ls, hls, h⟩ := Outcome.bind_eq_ok.1 h
  change (if ls.length < numRows s then _ else _) = _ at h
  split at h
  · cases h
  · next hrows =>
    obtain ⟨u, hu, h⟩ := Outcome.bind_eq_ok.1 h
    obtain ⟨u', hu', h⟩ := Outcome.bind_eq_ok.1 h
    obtain ⟨v, hv, h⟩ := Outcome.bind_eq_ok.1 h
    obtain ⟨w, hw, h⟩ := Outcome.bind_eq_ok.1 h
    obtain rfl : _ = q := Except.ok.inj h
    exact ⟨ls, u, hls, Nat.le_of_not_lt hrows, Outcome.require_eq_ok.1 hu,
      Outcome.require_eq_ok.1 hu', Outcome.require_eq_ok.1 hv, Outcome.require_eq_ok.1 hw, rfl⟩

/-- The values of an interpolating polynomial, weighted with the Lagrange basis. -/
theorem sum_of_interpolates (valid : d.Valid) {ls : List (Fp K)} (hls : d.lagrangeAt tau = .ok ls)
    {values : List (Fp K)} {P : (Fp K)[X]} (hP : d.Interpolates values P) :
    ∑ i ∈ range d.size, listAt values i * listAt ls i = P.eval tau := by
  rw [← valid.sum_lagrangeAt hls hP.degree_lt]
  exact sum_congr rfl fun i hi => by rw [hP.eval_root i (mem_range.1 hi)]

/-- A column, weighted with a vector of wires, is the value of the polynomial that interpolates the
rows on it. -/
theorem sum_column?_of_interpolates (valid : d.Valid) {ls : List (Fp K)}
    (hls : d.lagrangeAt tau = .ok ls) (hrows : s.numConstraints ≤ d.size)
    {part : Constraint K → LinearCombination K} {u : Array (Fp K)}
    (hu : column? part s.numWires s.constraints.toList ls = some u) {z : Nat → Fp K}
    {P : (Fp K)[X]} (hP : d.Interpolates (rowValues part s z) P) :
    ∑ j ∈ range s.numWires, vectorAt u j * z j = P.eval tau := by
  have hle : (rowValues part s z).length ≤ d.size := by rwa [length_rowValues]
  rw [(sum_column? z hu).2, ← sum_of_interpolates valid hls hP, sum_listAt_of_le _ _ hle,
    length_rowValues]
  rfl

/-- The first column, with the instance rows, weighted with a vector of wires, is the value of the
polynomial that interpolates the first factors on it. -/
theorem sum_instance_of_interpolates (valid : d.Valid) {ls : List (Fp K)}
    (hls : d.lagrangeAt tau = .ok ls) (hrows : numRows s ≤ d.size) {u u' : Array (Fp K)}
    (hu : column? (·.a) s.numWires s.constraints.toList ls = some u)
    (hu' : addInstance? u ((ls.drop s.numConstraints).take s.numInstance) = some u')
    {z : Nat → Fp K} {P : (Fp K)[X]} (hP : d.Interpolates (factorsA s z) P) :
    ∑ j ∈ range s.numWires, vectorAt u' j * z j = P.eval tau := by
  obtain ⟨hsize, hcolumn⟩ := sum_column? z hu
  obtain ⟨hsize', hsum⟩ := sum_addInstance? z hu'
  have hlen : ((ls.drop s.numConstraints).take s.numInstance).length = s.numInstance := by
    rw [List.length_take, List.length_drop, Domain.Valid.length_lagrangeAt hls]
    rw [numRows] at hrows
    rw [ConstraintSystem.numInstance]
    omega
  have hterm : ∀ i ∈ range s.numInstance,
      z i * listAt ((ls.drop s.numConstraints).take s.numInstance) i =
        listAt ((List.range s.numInstance).map z) i * listAt ls (s.numConstraints + i) := by
    intro i hi
    rw [listAt_take_drop (mem_range.1 hi), listAt_map_range (mem_range.1 hi)]
  rw [hsize', hsize, hcolumn, hlen, sum_congr rfl hterm] at hsum
  rw [hsum, ← sum_of_interpolates valid hls hP, factorsA, sum_listAt_append, length_rowValues,
    List.length_map, List.length_range]
  · rfl
  · rw [length_rowValues, List.length_map, List.length_range, ConstraintSystem.numInstance]
    exact hrows

/-- **The columns at a point are those of the interpolating polynomials.** -/
theorem evaluateAt_eq_ok (valid : d.Valid) (h : evaluateAt s d tau = .ok q) :
    Evaluated s d tau q := by
  obtain ⟨ls, u, hls, hrows, hu, hinstance, hv, hw, hvanishing⟩ := evaluateAt_parts h
  rw [Domain.Valid.length_lagrangeAt hls] at hrows
  have hconstraints := (numConstraints_le_numRows s).trans hrows
  exact
    { numRows_le := hrows
      outside := (Domain.Valid.lagrangeAt_eq_ok hls).1
      size_u := (sum_addInstance? (fun _ => 0) hinstance).1.trans (sum_column? (fun _ => 0) hu).1
      size_v := (sum_column? (fun _ => 0) hv).1
      size_w := (sum_column? (fun _ => 0) hw).1
      sum_u := fun _ _ => sum_instance_of_interpolates valid hls hrows hu hinstance
      sum_v := fun _ _ => sum_column?_of_interpolates valid hls hconstraints hv
      sum_w := fun _ _ => sum_column?_of_interpolates valid hls hconstraints hw
      vanishing := hvanishing }

/-! ## Evaluating succeeds -/

omit prime

theorem exists_addTerms? {acc : Array (Fp K)} {a : LinearCombination K} (below : a.Below acc.size)
    (weight : Fp K) : ∃ u, addTerms? weight acc a = some u := by
  obtain ⟨ts⟩ := a
  rw [addTerms?]
  induction ts generalizing acc with
  | nil => exact ⟨acc, rfl⟩
  | cons t ts ih =>
    have hhead : t.wire.index < acc.size := below t.wire List.mem_cons_self
    obtain ⟨u, hu⟩ : ∃ u, addAt? acc t.wire.index (weight * t.coeff) = some u := by
      rw [addAt?, getElem?_eq_vectorAt hhead]
      exact ⟨_, rfl⟩
    have hsize := (sum_addAt? (fun _ => 0) hu).1
    have htail : LinearCombination.Below u.size ⟨ts⟩ := by
      rw [hsize]
      exact fun w hw => below w (List.mem_cons_of_mem _ hw)
    rw [List.foldlM_cons, hu]
    exact ih htail

theorem exists_column? {part : Constraint K → LinearCombination K} {n : Nat}
    {rows : List (Constraint K)} (below : ∀ c ∈ rows, (part c).Below n) (ls : List (Fp K)) :
    ∃ u, column? part n rows ls = some u := by
  have hfold : ∀ (rows : List (Constraint K)) (ls : List (Fp K)) (acc : Array (Fp K)),
      (∀ c ∈ rows, (part c).Below acc.size) →
      ∃ u, (rows.zip ls).foldlM (fun acc r => addTerms? r.2 acc (part r.1)) acc = some u := by
    intro rows
    induction rows with
    | nil => exact fun _ acc _ => ⟨acc, rfl⟩
    | cons c rows ih =>
      intro ls acc below
      cases ls with
      | nil => exact ⟨acc, rfl⟩
      | cons l ls =>
        rw [List.forall_mem_cons] at below
        obtain ⟨u, hu⟩ := exists_addTerms? below.1 l
        rw [List.zip_cons_cons, List.foldlM_cons, hu]
        exact ih ls u (by rw [(sum_addTerms? (fun _ => 0) hu).1]; exact below.2)
  exact hfold rows ls _ (by rwa [Array.size_replicate])

theorem exists_addInstance? {acc : Array (Fp K)} {ls : List (Fp K)} (h : ls.length ≤ acc.size) :
    ∃ u, addInstance? acc ls = some u := by
  have hfrom : ∀ (ls : List (Fp K)) (k : Nat) (acc : Array (Fp K)), k + ls.length ≤ acc.size →
      ∃ u, (ls.zipIdx k).foldlM (fun acc l => addAt? acc l.2 l.1) acc = some u := by
    intro ls
    induction ls with
    | nil => exact fun _ acc _ => ⟨acc, rfl⟩
    | cons l ls ih =>
      intro k acc h
      rw [List.length_cons] at h
      obtain ⟨u, hu⟩ : ∃ u, addAt? acc k l = some u := by
        rw [addAt?, getElem?_eq_vectorAt (by omega)]
        exact ⟨_, rfl⟩
      rw [List.zipIdx_cons, List.foldlM_cons, hu]
      exact ih (k + 1) u (by rw [(sum_addAt? (fun _ => 0) hu).1]; omega)
  exact hfrom ls 0 acc (by rwa [Nat.zero_add])

/-- **Columns are evaluated** at every point outside of the domain, if there is a point for every row
and the rows mention no other wires than those of the system. -/
theorem evaluateAt_ok (rows : numRows s ≤ d.size) (listed : d.size ≤ Domain.maxListed)
    (below : ∀ c ∈ s.constraints.toList, c.Below s.numWires) (inside : s.numInstance ≤ s.numWires)
    (outside : tau ^ d.size ≠ 1) : ∃ q, evaluateAt s d tau = .ok q := by
  obtain ⟨ls, hls⟩ : ∃ ls, d.lagrangeAt tau = .ok ls := by
    rw [Domain.lagrangeAt, Domain.listElements, Domain.vanishingAt,
      if_neg (sub_ne_zero.2 outside), if_pos listed]
    exact ⟨_, rfl⟩
  obtain ⟨u, hu⟩ := exists_column? (fun c hc => (below c hc).a) ls
  obtain ⟨v, hv⟩ := exists_column? (fun c hc => (below c hc).b) ls
  obtain ⟨w, hw⟩ := exists_column? (fun c hc => (below c hc).c) ls
  obtain ⟨u', hu'⟩ : ∃ u', addInstance? u ((ls.drop s.numConstraints).take s.numInstance) =
      some u' := by
    refine exists_addInstance? ?_
    rw [(sum_column? (fun _ => 0) hu).1, List.length_take]
    exact (min_le_left _ _).trans inside
  refine ⟨⟨u', v, w, d.vanishingAt tau⟩, ?_⟩
  rw [evaluateAt, hls]
  change (if ls.length < numRows s then _ else _) = _
  rw [if_neg (by rw [Domain.Valid.length_lagrangeAt hls]; omega)]
  rw [hu, hv, hw]
  change (Outcome.require (addInstance? u _) >>= _) = _
  rw [hu']
  rfl

end

end Qap

end Groth16
