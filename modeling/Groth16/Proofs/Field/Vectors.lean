import Groth16.Proofs.Field.Laws

/-!
# Vectors of field elements

A vector is read as a function on all positions, zero past its end, so that sums over it and
statements about its entries need no bounds.

* `vectorAt`: the entry at a position, `listAt` that of a list.
* `getElem?_eq_vectorAt`: before the end of the vector it is what indexing gives.
-/

set_option autoImplicit false

namespace Groth16

variable {K : PrimeField}

/-- The entry at a position, zero past the end of the vector. -/
def vectorAt (z : Array (Fp K)) (i : Nat) : Fp K := z.getD i 0

/-- The entry of a list at a position, zero past the end of the list. -/
def listAt (xs : List (Fp K)) (i : Nat) : Fp K := xs.getD i 0

theorem getElem?_eq_vectorAt {z : Array (Fp K)} {i : Nat} (h : i < z.size) :
    z[i]? = some (vectorAt z i) := by
  rw [vectorAt, Array.getElem?_eq_getElem h, Array.getD_eq_getD_getElem?,
    Array.getElem?_eq_getElem h, Option.getD_some]

theorem vectorAt_of_getElem? {z : Array (Fp K)} {i : Nat} {x : Fp K} (h : z[i]? = some x) :
    vectorAt z i = x := by
  rw [vectorAt, Array.getD_eq_getD_getElem?, h, Option.getD_some]

theorem vectorAt_of_size_le {z : Array (Fp K)} {i : Nat} (h : z.size ≤ i) : vectorAt z i = 0 := by
  rw [vectorAt, Array.getD_eq_getD_getElem?, Array.getElem?_eq_none h, Option.getD_none]

theorem vectorAt_setIfInBounds {z : Array (Fp K)} {n : Nat} (h : n < z.size) (x : Fp K) (i : Nat) :
    vectorAt (z.setIfInBounds n x) i = if i = n then x else vectorAt z i := by
  rw [vectorAt, vectorAt, Array.getD_eq_getD_getElem?, Array.getD_eq_getD_getElem?,
    Array.getElem?_setIfInBounds]
  by_cases hi : n = i
  · subst hi
    simp [h]
  · rw [if_neg hi, if_neg fun h => hi h.symm]

theorem vectorAt_zipWith {f : Fp K → Fp K → Fp K} {a b : Array (Fp K)} {i : Nat} (ha : i < a.size)
    (hb : i < b.size) : vectorAt (Array.zipWith f a b) i = f (vectorAt a i) (vectorAt b i) := by
  refine vectorAt_of_getElem? ?_
  rw [Array.getElem?_zipWith, getElem?_eq_vectorAt ha, getElem?_eq_vectorAt hb]

theorem vectorAt_take (a : Array (Fp K)) (n i : Nat) :
    vectorAt (a.take n) i = if i < n then vectorAt a i else 0 := by
  rw [vectorAt, vectorAt, Array.getD_eq_getD_getElem?, Array.getD_eq_getD_getElem?, Array.take,
    Array.getElem?_extract]
  by_cases hi : i < n
  · by_cases hsize : i < a.size
    · rw [if_pos (by omega), if_pos hi, Nat.zero_add]
    · rw [if_neg (by omega), if_pos hi, Array.getElem?_eq_none (by omega)]
  · rw [if_neg (by omega), if_neg hi]
    rfl

/-- Vectors of one length with the same entries are equal. -/
theorem ext_vectorAt {a b : Array (Fp K)} (size : a.size = b.size)
    (h : ∀ i < a.size, vectorAt a i = vectorAt b i) : a = b := by
  refine Array.ext size fun i hi hi' => ?_
  have hentry := h i hi
  rwa [← Option.some.injEq, ← getElem?_eq_vectorAt hi, ← getElem?_eq_vectorAt hi',
    Array.getElem?_eq_getElem hi, Array.getElem?_eq_getElem hi', Option.some.injEq] at hentry

/-! ## Lists -/

@[simp] theorem vectorAt_toArray (xs : List (Fp K)) (i : Nat) :
    vectorAt xs.toArray i = listAt xs i := by
  rw [vectorAt, listAt, Array.getD_eq_getD_getElem?, List.getElem?_toArray,
    List.getD_eq_getElem?_getD]

@[simp] theorem listAt_toList (z : Array (Fp K)) (i : Nat) : listAt z.toList i = vectorAt z i := by
  rw [← vectorAt_toArray, Array.toArray_toList]

@[simp] theorem listAt_nil (i : Nat) : listAt ([] : List (Fp K)) i = 0 := rfl

@[simp] theorem listAt_cons_zero (x : Fp K) (xs : List (Fp K)) : listAt (x :: xs) 0 = x := rfl

@[simp] theorem listAt_cons_succ (x : Fp K) (xs : List (Fp K)) (i : Nat) :
    listAt (x :: xs) (i + 1) = listAt xs i := rfl

theorem listAt_of_getElem? {xs : List (Fp K)} {i : Nat} {x : Fp K} (h : xs[i]? = some x) :
    listAt xs i = x := by
  rw [listAt, List.getD_eq_getElem?_getD, h, Option.getD_some]

theorem listAt_of_length_le {xs : List (Fp K)} {i : Nat} (h : xs.length ≤ i) : listAt xs i = 0 := by
  rw [listAt, List.getD_eq_getElem?_getD, List.getElem?_eq_none h, Option.getD_none]

theorem listAt_append_left {xs : List (Fp K)} {i : Nat} (h : i < xs.length) (ys : List (Fp K)) :
    listAt (xs ++ ys) i = listAt xs i := by
  rw [listAt, listAt, List.getD_eq_getElem?_getD, List.getElem?_append_left h,
    ← List.getD_eq_getElem?_getD]

theorem listAt_append_right (xs ys : List (Fp K)) (i : Nat) :
    listAt (xs ++ ys) (xs.length + i) = listAt ys i := by
  rw [listAt, listAt, List.getD_eq_getElem?_getD, List.getElem?_append_right (Nat.le_add_right _ _),
    Nat.add_sub_cancel_left, ← List.getD_eq_getElem?_getD]

theorem listAt_take_drop {xs : List (Fp K)} {m n i : Nat} (h : i < n) :
    listAt ((xs.drop m).take n) i = listAt xs (m + i) := by
  rw [listAt, listAt, List.getD_eq_getElem?_getD, List.getD_eq_getElem?_getD,
    List.getElem?_take_of_lt h, List.getElem?_drop]

theorem listAt_map_range {n i : Nat} (h : i < n) (f : Nat → Fp K) :
    listAt ((List.range n).map f) i = f i :=
  listAt_of_getElem? (by rw [List.getElem?_map, List.getElem?_range h, Option.map_some])

theorem listAt_append_replicate (xs : List (Fp K)) (k i : Nat) :
    listAt (xs ++ List.replicate k 0) i = listAt xs i := by
  by_cases h : i < xs.length
  · exact listAt_append_left h _
  · obtain ⟨j, rfl⟩ := Nat.le.dest (Nat.le_of_not_lt h)
    rw [listAt_append_right, listAt_of_length_le (Nat.le_add_right _ _), listAt,
      List.getD_eq_getElem?_getD, List.getElem?_replicate]
    split
    · rfl
    · rfl

end Groth16
