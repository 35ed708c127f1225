import Groth16.Circuit.Builder
import Groth16.Proofs.Field.Laws

/-!
# Bits of field elements

A field element is decomposed into bits by its canonical integer, and recomposed by a sum in the
field.  The two fit together only where the sum cannot wrap around the modulus, which is why the
builder keeps decompositions one bit shorter than the modulus.

* `IsBit`: zero or one.
* `bitSum`: the element with given bits, lowest first; `bitsOf`: the lowest bits of an element.
* `bitSum_eq_iff`: as long as there is room below the modulus, bits sum up to an element exactly if
  they are its lowest bits and it has no others.
* `two_pow_maxBits_le`: up to `Build.maxBits` bits there is room.
-/

set_option autoImplicit false

namespace Groth16

variable {K : PrimeField}

namespace Fp

/-- The value is a bit. -/
def IsBit (a : Fp K) : Prop := a = 0 ∨ a = 1

instance (a : Fp K) : Decidable a.IsBit := inferInstanceAs (Decidable (a = 0 ∨ a = 1))

/-- The element with the given bits, lowest first. -/
def bitSum : List (Fp K) → Fp K
  | [] => 0
  | b :: bs => b + 2 * bitSum bs

/-- The `n` lowest bits of a number, lowest first. -/
def bitList (K : PrimeField) (m n : Nat) : List (Fp K) :=
  (List.range n).map fun i => ofBool (m.testBit i)

/-- The `n` lowest bits of the canonical integer, lowest first. -/
def bitsOf (a : Fp K) (n : Nat) : List (Fp K) := bitList K a.val n

theorem isBit_ofBool (b : Bool) : (ofBool b : Fp K).IsBit := by
  cases b
  · exact .inl rfl
  · exact .inr rfl

@[simp] theorem length_bitList (m n : Nat) : (bitList K m n).length = n := by
  simp [bitList]

@[simp] theorem length_bitsOf (a : Fp K) (n : Nat) : (a.bitsOf n).length = n := length_bitList _ _

theorem isBit_of_mem_bitList {m n : Nat} {b : Fp K} (h : b ∈ bitList K m n) : b.IsBit := by
  obtain ⟨i, -, rfl⟩ := List.mem_map.1 h
  exact isBit_ofBool _

theorem bitList_succ (m n : Nat) :
    bitList K m (n + 1) = ofBool (m.testBit 0) :: bitList K (m / 2) n := by
  rw [bitList, bitList, List.range_succ_eq_map, List.map_cons, List.map_map]
  congr 1
  refine List.map_congr_left fun i _ => ?_
  rw [Function.comp, Nat.testBit_add_one]

/-! ## The number behind a list of bits -/

/-- The number with the given bits, lowest first. -/
def bitNat : List (Fp K) → Nat
  | [] => 0
  | b :: bs => b.val + 2 * bitNat bs

theorem natCast_bitNat (bs : List (Fp K)) : ((bitNat bs : Nat) : Fp K) = bitSum bs := by
  induction bs with
  | nil => simp [bitNat, bitSum]
  | cons b bs ih =>
    rw [bitNat, bitSum, Nat.cast_add, Nat.cast_mul, ih, natCast_val]
    rfl

theorem val_lt_two_of_isBit {b : Fp K} (h : b.IsBit) : b.val < 2 := by
  rcases h with rfl | rfl
  · exact Nat.zero_lt_two
  · exact Nat.one_lt_two

theorem bitNat_lt {bs : List (Fp K)} (bits : ∀ b ∈ bs, b.IsBit) : bitNat bs < 2 ^ bs.length := by
  induction bs with
  | nil => simp [bitNat]
  | cons b bs ih =>
    rw [List.forall_mem_cons] at bits
    have hhead := val_lt_two_of_isBit bits.1
    have htail := ih bits.2
    rw [bitNat, List.length_cons, pow_succ]
    omega

/-- A list of bits is the list of bits of its number. -/
theorem bitList_bitNat {bs : List (Fp K)} (bits : ∀ b ∈ bs, b.IsBit) :
    bitList K (bitNat bs) bs.length = bs := by
  induction bs with
  | nil => rfl
  | cons b bs ih =>
    rw [List.forall_mem_cons] at bits
    have hhead := val_lt_two_of_isBit bits.1
    have hhalf : bitNat (b :: bs) / 2 = bitNat bs := by
      rw [bitNat]
      omega
    have hlow : ofBool ((bitNat (b :: bs)).testBit 0) = b := by
      rw [bitNat, Nat.testBit_zero]
      rcases bits.1 with rfl | rfl
      · simp [ofBool]
      · simp [ofBool, Nat.add_mod]
    rw [List.length_cons, bitList_succ, hlow, hhalf, ih bits.2]

/-- A number is the number of its bits, if it has no others. -/
theorem bitNat_bitList {m n : Nat} (h : m < 2 ^ n) : bitNat (bitList K m n) = m := by
  induction n generalizing m with
  | zero =>
    have : m = 0 := by simpa using h
    subst this
    rfl
  | succ n ih =>
    have hhalf : m / 2 < 2 ^ n := by
      rw [pow_succ] at h
      omega
    have hlow : (ofBool (m.testBit 0) : Fp K).val = m % 2 := by
      rw [Nat.testBit_zero]
      rcases Nat.mod_two_eq_zero_or_one m with hm | hm
      · simp [ofBool, hm]
      · simp [ofBool, hm]
    rw [bitList_succ, bitNat, ih hhalf, hlow]
    omega

theorem val_natCast_of_lt {m : Nat} (h : m < K.modulus) : ((m : Nat) : Fp K).val = m :=
  Nat.mod_eq_of_lt h

/-- **Decomposition is unique.**  Bits for which there is room below the modulus sum up to an
element exactly if they are its lowest bits and it has no others. -/
theorem bitSum_eq_iff {a : Fp K} {bs : List (Fp K)} (bits : ∀ b ∈ bs, b.IsBit)
    (room : 2 ^ bs.length ≤ K.modulus) :
    bitSum bs = a ↔ a.val < 2 ^ bs.length ∧ bs = a.bitsOf bs.length := by
  constructor
  · rintro rfl
    have hval : (bitSum bs).val = bitNat bs := by
      rw [← natCast_bitNat, val_natCast_of_lt (Nat.lt_of_lt_of_le (bitNat_lt bits) room)]
    rw [bitsOf, hval, bitList_bitNat bits]
    exact ⟨bitNat_lt bits, rfl⟩
  · rintro ⟨hlt, hbs⟩
    rw [hbs, ← natCast_bitNat, bitsOf, bitNat_bitList hlt, natCast_val]

end Fp

theorem two_pow_maxBits_le (K : PrimeField) : 2 ^ Build.maxBits K ≤ K.modulus := by
  rw [Build.maxBits, PrimeField.bitLength, Nat.add_sub_cancel]
  exact Nat.log2_self_le K.modulus_pos.ne'

end Groth16
