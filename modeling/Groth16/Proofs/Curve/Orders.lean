import Mathlib.Data.List.GetD
import Groth16.Field.Known
import Groth16.Proofs.Curve.Multiples

/-!
# Partial sums in any order

Workers that run side by side form the partial sums of a sum of multiples, and nothing is said on
when one of them is ready.  Two neighbours may be added before the sum before them is there, zeros
may be put in between, and the sums may be taken in another order than that of the points.  `msm`
adds them up from left to right.  This file shows that every other order gives the same point.

* `AddsUp`: a list of points is added up in some order.
* `MsmYields`: what a sum of multiples may come to, if its partial sums are added up in some order.
* `AddsUp.eq_sum`, `addsUp_foldl`: every order gives the sum, and from left to right is one of them.
* `msm_eq_sum_positions`: a sum of multiples is the sum of the multiples, by positions.
* `msm_independent_of_order`: a sum of multiples comes to the sum of the multiples, and to nothing
  else.
-/

set_option autoImplicit false

namespace Groth16

variable {K : PrimeField} {G : Type} [ScalarGroup K G]

/-! ## Orders of addition -/

/-- The points are added up to `p`, each of them once: in pairs however nested, in any order, and
with any number of zeros. -/
inductive AddsUp : List G → G → Prop where
  /-- Nothing adds up to zero. -/
  | zero : AddsUp [] 0
  /-- A single point is its sum. -/
  | single (p : G) : AddsUp [p] p
  /-- What two parts add up to is added. -/
  | add {ps qs : List G} {p q : G} (left : AddsUp ps p) (right : AddsUp qs q) :
      AddsUp (ps ++ qs) (p + q)
  /-- The points are taken in another order. -/
  | perm {ps qs : List G} {p : G} (order : ps.Perm qs) (sum : AddsUp ps p) : AddsUp qs p

/-- From left to right is an order. -/
theorem addsUp_foldl (ps : List G) : AddsUp ps (ps.foldl (· + ·) 0) := by
  -- The points before those that are left are added up to the start of the fold.
  have hfrom : ∀ (qs before : List G) (p : G), AddsUp before p →
      AddsUp (before ++ qs) (qs.foldl (· + ·) p) := by
    intro qs
    induction qs with
    | nil =>
      intro before p h
      rwa [List.append_nil]
    | cons q qs ih =>
      intro before p h
      rw [List.append_cons, List.foldl_cons]
      exact ih (before ++ [q]) (p + q) (h.add (.single q))
  exact hfrom ps [] 0 .zero

section
variable [lawful : LawfulSums K G]

theorem sum_eq_of_perm {ps qs : List G} (h : ps.Perm qs) : ps.sum = qs.sum := by
  rw [List.sum_eq_foldr, List.sum_eq_foldr]
  refine h.foldr_eq' (fun p _ q _ r => ?_) 0
  rw [← lawful.add_assoc, lawful.add_comm q p, lawful.add_assoc]

/-- **Every order gives the sum.** -/
theorem AddsUp.eq_sum {ps : List G} {p : G} (h : AddsUp ps p) : p = ps.sum := by
  induction h with
  | zero => rfl
  | single p => rw [List.sum_cons, List.sum_nil, lawful.add_comm, lawful.zero_add]
  | add _ _ left right => rw [List.sum_append, ← left, ← right]
  | perm order _ ih => rw [ih, sum_eq_of_perm order]

end

/-! ## Sums of multiples -/

/-- What a sum of multiples may come to: it is split as `msm` splits it, and the partial sums are
added up in some order. -/
def MsmYields (workers : Nat) (bases : List G) (scalars : List (Fp K)) (p : G) : Prop :=
  let length := min bases.length scalars.length
  let bases := bases.take length
  let scalars := scalars.take length
  if length = 0 then p = 0
  else
    let k := stretchLength workers length
    if k < length then AddsUp (partialSums (k - 1) bases scalars) p
    else p = ScalarGroup.sumOfMultiples (bases.zip scalars)

theorem msmYields_msm (workers : Nat) (bases : List G) (scalars : List (Fp K)) :
    MsmYields workers bases scalars (msm workers bases scalars) := by
  rw [MsmYields, msm]
  dsimp only
  split
  · rfl
  · split
    · exact addsUp_foldl _
    · rfl

/-- The sum of the multiples, by positions. -/
theorem plainSum_eq_sum_range (bases : List G) (scalars : List (Fp K)) :
    plainSum bases scalars =
      ((List.range (min bases.length scalars.length)).map fun i =>
        listAt scalars i • bases.getD i 0).sum := by
  rw [plainSum]
  congr 1
  refine List.ext_getElem (by simp) fun i h _ => ?_
  rw [List.length_map, List.length_zip, lt_min_iff] at h
  rw [List.getElem_map, List.getElem_zip, List.getElem_map, List.getElem_range,
    List.getD_eq_getElem _ _ h.1, listAt, List.getD_eq_getElem _ _ h.2]

section
variable [LawfulSums K G]

theorem msm_eq_sum_positions (workers : Nat) (bases : List G) (scalars : List (Fp K)) :
    msm workers bases scalars =
      ((List.range (min bases.length scalars.length)).map fun i =>
        listAt scalars i • bases.getD i 0).sum :=
  (msm_eq_sum workers bases scalars).trans (plainSum_eq_sum_range bases scalars)

/-- Whatever the order, a sum of multiples comes to what `msm` gives. -/
theorem MsmYields.eq_msm {workers : Nat} {bases : List G} {scalars : List (Fp K)} {p : G}
    (h : MsmYields workers bases scalars p) : p = msm workers bases scalars := by
  rw [MsmYields] at h
  rw [msm]
  dsimp only at h ⊢
  split at h
  · next none => rw [if_pos none, h]
  · next some =>
    rw [if_neg some]
    split at h
    · next parts => rw [if_pos parts, h.eq_sum, List.sum_eq_foldl]
    · next whole => rw [if_neg whole, h]

/-- **A sum of multiples is the sum of the multiples, in whatever order it is formed.**  Let points
and scalars be lists of any lengths, and let them be split for any number of workers.  In every
order in which the partial sums are added up, they come to the sum of the multiples of the points
that have a scalar, by the scalars that have a point; and `msm` gives this sum. -/
theorem msm_independent_of_order (workers : Nat) (bases : List G) (scalars : List (Fp K)) :
    msm workers bases scalars =
        ((List.range (min bases.length scalars.length)).map fun i =>
          listAt scalars i • bases.getD i 0).sum ∧
      ∀ p, MsmYields workers bases scalars p ↔
        p = ((List.range (min bases.length scalars.length)).map fun i =>
          listAt scalars i • bases.getD i 0).sum := by
  have hmsm := msm_eq_sum_positions workers bases scalars
  refine ⟨hmsm, fun p => ⟨fun h => ?_, ?_⟩⟩
  · rw [h.eq_msm, hmsm]
  · rintro rfl
    rw [← hmsm]
    exact msmYields_msm workers bases scalars

end

namespace Orders

/-- The multiples of the generator by `1, 2, …, 600`. -/
def bases : List (Logarithm bn254Scalar) :=
  (List.range 600).map fun i => ⟨.ofNat bn254Scalar (i + 1)⟩

/-- The scalar two, six hundred and fifty times. -/
def scalars : List (Fp bn254Scalar) := List.replicate 650 (.ofNat bn254Scalar 2)

end Orders

/-- Three workers form three partial sums of two hundred and fifty-six, as many, and eighty-eight
multiples.  In every order these come to the multiple of the generator by `600 · 601`. -/
theorem msm_independent_of_order_sample :
    (partialSums (stretchLength 3 600 - 1) Orders.bases (Orders.scalars.take 600)).length = 3 ∧
      msm 3 Orders.bases Orders.scalars = ⟨.ofNat bn254Scalar (600 * 601)⟩ ∧
      ∀ p, MsmYields 3 Orders.bases Orders.scalars p → p = ⟨.ofNat bn254Scalar (600 * 601)⟩ := by
  have hsum : ((List.range (min Orders.bases.length Orders.scalars.length)).map fun i =>
      listAt Orders.scalars i • Orders.bases.getD i 0).sum =
        ⟨.ofNat bn254Scalar (600 * 601)⟩ := by
    rw [← plainSum_eq_sum_range]
    decide +kernel
  obtain ⟨hmsm, hyields⟩ := msm_independent_of_order 3 Orders.bases Orders.scalars
  rw [hsum] at hmsm hyields
  exact ⟨by decide +kernel, hmsm, fun p => (hyields p).mp⟩

end Groth16
