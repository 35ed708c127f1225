import Groth16.Proofs.Data.Bytes

/-!
# Writers whose output says where it ends

Byte strings that are written one behind the other can be told apart only if each of them says where
it ends.  A writer of this kind is `Delimited`: from what it wrote, followed by anything, one can tell
the value, up to what the writer is meant to leave out, and what follows.

* `Delimited`: the property of a writer, for valid values, with the part of a value that it tells.
* `delimited_littleEndian`: numbers of fixed width are delimited, as far as they fit.
* `Delimited.of_length`: so is everything that is written in one length.
* `Delimited.flatMap`, `Delimited.counted`: lists of one length are delimited if their entries are, and
  so is a list of any length behind its length.
* `ofText_injective`: the bytes of a text tell the text.
-/

set_option autoImplicit false

namespace Groth16.Bytes

variable {α β : Type} {write : α → Bytes} {view : α → β} {valid : α → Prop}

/-- What is written for a valid value, followed by anything, tells the view of the value and what
follows. -/
def Delimited (write : α → Bytes) (view : α → β) (valid : α → Prop) : Prop :=
  ∀ ⦃x y⦄, valid x → valid y → ∀ ⦃s t⦄, write x ++ s = write y ++ t → view x = view y ∧ s = t

namespace Delimited

/-- What is written in one length is delimited, if it tells the view at all. -/
theorem of_length (length : ∀ ⦃x y⦄, valid x → valid y → (write x).length = (write y).length)
    (tells : ∀ ⦃x y⦄, valid x → valid y → write x = write y → view x = view y) :
    Delimited write view valid := by
  intro x y hx hy s t h
  obtain ⟨hwrite, hrest⟩ := List.append_inj h (length hx hy)
  exact ⟨tells hx hy hwrite, hrest⟩

/-- Lists of one length are delimited if their entries are. -/
theorem flatMap (h : Delimited write view valid) {xs ys : List α} (length : xs.length = ys.length)
    (hxs : ∀ x ∈ xs, valid x) (hys : ∀ y ∈ ys, valid y) {s t : Bytes}
    (eq : xs.flatMap write ++ s = ys.flatMap write ++ t) : xs.map view = ys.map view ∧ s = t := by
  induction xs generalizing ys with
  | nil =>
    obtain rfl := List.length_eq_zero_iff.1 length.symm
    exact ⟨rfl, eq⟩
  | cons x xs ih =>
    obtain ⟨y, ys, rfl⟩ := List.exists_cons_of_length_eq_add_one length.symm
    rw [List.forall_mem_cons] at hxs hys
    rw [List.flatMap_cons, List.flatMap_cons, List.append_assoc, List.append_assoc] at eq
    obtain ⟨hhead, eq⟩ := h hxs.1 hys.1 eq
    obtain ⟨htail, hrest⟩ := ih (Nat.succ.inj length) hxs.2 hys.2 eq
    rw [List.map_cons, List.map_cons, hhead, htail]
    exact ⟨rfl, hrest⟩

end Delimited

/-- A number of fixed width is delimited, if it fits. -/
theorem delimited_littleEndian (width : Nat) :
    Delimited (littleEndian width) id (· < 256 ^ width) := by
  refine .of_length (fun n m _ _ => ?_) fun n m hn hm h => ?_
  · rw [length_littleEndian, length_littleEndian]
  · have hvalue := congrArg ofLittleEndian h
    rw [ofLittleEndian_littleEndian, ofLittleEndian_littleEndian, Nat.mod_eq_of_lt hn,
      Nat.mod_eq_of_lt hm] at hvalue
    exact hvalue

/-- **A list behind its length is delimited**, if its entries are. -/
theorem Delimited.counted (h : Delimited write view valid) (width : Nat) :
    Delimited (fun xs : List α => littleEndian width xs.length ++ xs.flatMap write) (List.map view)
      fun xs => xs.length < 256 ^ width ∧ ∀ x ∈ xs, valid x := by
  intro xs ys hxs hys s t eq
  rw [List.append_assoc, List.append_assoc] at eq
  obtain ⟨length, eq⟩ := delimited_littleEndian width hxs.1 hys.1 eq
  exact h.flatMap length hxs.2 hys.2 eq

/-! ## Texts -/

theorem toList_eq_data (bs : ByteArray) : bs.toList = bs.data.toList := by
  have hloop : ∀ (k i : Nat) (acc : List UInt8), bs.size - i = k →
      ByteArray.toList.loop bs i acc = acc.reverse ++ bs.data.toList.drop i := by
    intro k
    induction k with
    | zero =>
      intro i acc hk
      rw [ByteArray.toList.loop, if_neg (by omega), List.drop_eq_nil_of_le, List.append_nil]
      rw [Array.length_toList]
      exact Nat.le_of_sub_eq_zero hk
    | succ k ih =>
      intro i acc hk
      have hi : i < bs.size := by omega
      rw [ByteArray.toList.loop, if_pos hi, ih (i + 1) _ (by omega), List.reverse_cons,
        List.append_assoc]
      have hlt : i < bs.data.toList.length := by
        rw [Array.length_toList]
        exact hi
      have hentry : bs.get! i = bs.data.toList[i] := by
        rw [ByteArray.get!, getElem!_pos bs.data i hi, Array.getElem_toList]
      rw [hentry, List.drop_eq_getElem_cons hlt]
      rfl
  rw [ByteArray.toList, hloop _ 0 [] rfl]
  rfl

/-- **The bytes of a text tell the text.** -/
theorem ofText_injective : Function.Injective ofText := by
  intro s t h
  rw [ofText, ofText, toList_eq_data, toList_eq_data] at h
  exact String.toByteArray_inj.1 (ByteArray.ext (Array.ext' h))

end Groth16.Bytes
