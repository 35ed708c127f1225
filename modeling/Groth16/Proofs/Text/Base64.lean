import Mathlib.Tactic.Common
import Groth16.Text.Base64
import Groth16.Text.Blank

/-!
# Reading back what is written in Base64

* `decode?_encode`: the bytes of a text are those that it was written for.
* `trim_encode`: there are no blanks at the ends of such a text.
-/

set_option autoImplicit false

namespace Groth16.Base64

/-! ## Digits -/

theorem digit?_digit {n : Nat} (h : n < 64) : digit? (digit n) = some n := by
  have all : ∀ m : Fin 64, digit? (digit m) = some m.val := by decide +kernel
  exact all ⟨n, h⟩

theorem digit_ne_padding {n : Nat} (h : n < 64) : digit n ≠ padding := by
  have all : ∀ m : Fin 64, digit m ≠ padding := by decide +kernel
  exact all ⟨n, h⟩

theorem digit?_padding : digit? padding = none := by decide

theorem isBlank_digit {n : Nat} (h : n < 64) : Text.isBlank (digit n) = false := by
  have all : ∀ m : Fin 64, Text.isBlank (digit m) = false := by decide +kernel
  exact all ⟨n, h⟩

/-! ## Groups -/

theorem ofNat_eq {n : Nat} {a : UInt8} (h : n % 256 = a.toNat) : UInt8.ofNat n = a := by
  rw [← UInt8.toNat_inj, UInt8.toNat_ofNat', h]

/-- A full group of digits stands for its three bytes. -/
theorem decodeGroup?_digits {w x y z : Nat} (hw : w < 64) (hx : x < 64) (hy : y < 64) (hz : z < 64)
    {a b c : UInt8}
    (h : ((w * 64 + x) * 64 + y) * 64 + z = (a.toNat * 256 + b.toNat) * 256 + c.toNat) :
    decodeGroup? (digit w) (digit x) (digit y) (digit z) = some [a, b, c] := by
  have ha := a.toNat_lt
  have hb := b.toNat_lt
  have hc := c.toNat_lt
  rw [decodeGroup?, digit?_digit hw, digit?_digit hx, digit?_digit hy, digit?_digit hz]
  simp only [Option.pure_def, Option.bind_eq_bind, Option.bind_some, h]
  rw [ofNat_eq (a := a) (by omega), ofNat_eq (a := b) (by omega), ofNat_eq (a := c) (by omega)]

/-- A group that ends with padding is no full group. -/
theorem decodeGroup?_padding (a b c : Char) : decodeGroup? a b c padding = none := by
  rw [decodeGroup?, digit?_padding]
  cases digit? a
  · rfl
  · cases digit? b
    · rfl
    · cases digit? c
      · rfl
      · rfl

theorem decodeLast?_one {x y : Nat} (hx : x < 64) (hy : y < 64) {a : UInt8}
    (h : x * 64 + y = a.toNat * 16) :
    decodeLast? (digit x) (digit y) padding padding = some [a] := by
  have ha := a.toNat_lt
  rw [decodeLast?, digit?_digit hx, digit?_digit hy]
  simp only [Option.bind_eq_bind, Option.bind_some, ne_eq, not_true_eq_false, if_false, if_true, h]
  rw [if_pos (by omega), ofNat_eq (a := a) (by omega)]

theorem decodeLast?_two {x y z : Nat} (hx : x < 64) (hy : y < 64) (hz : z < 64) {a b : UInt8}
    (h : (x * 64 + y) * 64 + z = (a.toNat * 256 + b.toNat) * 4) :
    decodeLast? (digit x) (digit y) (digit z) padding = some [a, b] := by
  have ha := a.toNat_lt
  have hb := b.toNat_lt
  rw [decodeLast?, digit?_digit hx, digit?_digit hy]
  simp only [Option.bind_eq_bind, Option.bind_some, ne_eq, not_true_eq_false, if_false,
    digit_ne_padding hz, digit?_digit hz, h]
  rw [if_pos (by omega), ofNat_eq (a := a) (by omega), ofNat_eq (a := b) (by omega)]

/-! ## Texts -/

/-- A group in front of others is a full one. -/
theorem decodeChars?_cons (a b c d e : Char) (rest : List Char) :
    decodeChars? (a :: b :: c :: d :: e :: rest) =
      (decodeGroup? a b c d).bind fun bs => (decodeChars? (e :: rest)).map (bs ++ ·) := by
  rw [decodeChars?]
  · cases decodeGroup? a b c d
    · rfl
    · cases decodeChars? (e :: rest)
      · rfl
      · rfl
  · simp

theorem decodeChars?_encodeChars (bs : Bytes) : decodeChars? (encodeChars bs) = some bs := by
  induction bs using encodeChars.induct with
  | case1 => rfl
  | case2 a =>
    have ha := a.toNat_lt
    rw [encodeChars, decodeChars?, decodeGroup?_padding,
      decodeLast?_one (a := a) (by omega) (by omega) (by omega)]
    rfl
  | case3 a b =>
    have ha := a.toNat_lt
    have hb := b.toNat_lt
    rw [encodeChars, decodeChars?, decodeGroup?_padding,
      decodeLast?_two (a := a) (b := b) (by omega) (by omega) (by omega) (by omega)]
    rfl
  | case4 a b c rest ih =>
    have ha := a.toNat_lt
    have hb := b.toNat_lt
    have hc := c.toNat_lt
    rw [encodeChars]
    cases hrest : encodeChars rest with
    | nil =>
      rw [hrest] at ih
      obtain rfl : [] = rest := Option.some.inj ih
      rw [decodeChars?, decodeGroup?_digits (a := a) (b := b) (c := c) (by omega) (by omega)
        (by omega) (by omega) (by omega)]
      rfl
    | cons e es =>
      rw [hrest] at ih
      rw [decodeChars?_cons, decodeGroup?_digits (a := a) (b := b) (c := c) (by omega) (by omega)
        (by omega) (by omega) (by omega), ih]
      rfl

/-- **The bytes of a text are those that it was written for.** -/
theorem decode?_encode (bs : Bytes) : decode? (encode bs) = some bs := by
  rw [decode?, encode, String.toList_ofList, decodeChars?_encodeChars]

/-! ## Blanks -/

theorem isBlank_of_mem_encodeChars (bs : Bytes) :
    ∀ c ∈ encodeChars bs, Text.isBlank c = false := by
  have hpadding : Text.isBlank padding = false := by decide
  induction bs using encodeChars.induct with
  | case1 => exact nofun
  | case2 a =>
    have ha := a.toNat_lt
    simp only [encodeChars, List.forall_mem_cons]
    exact ⟨isBlank_digit (by omega), isBlank_digit (by omega), hpadding, hpadding, nofun⟩
  | case3 a b =>
    have ha := a.toNat_lt
    have hb := b.toNat_lt
    simp only [encodeChars, List.forall_mem_cons]
    exact ⟨isBlank_digit (by omega), isBlank_digit (by omega), isBlank_digit (by omega), hpadding,
      nofun⟩
  | case4 a b c rest ih =>
    have ha := a.toNat_lt
    have hb := b.toNat_lt
    have hc := c.toNat_lt
    simp only [encodeChars, List.forall_mem_cons]
    exact ⟨isBlank_digit (by omega), isBlank_digit (by omega), isBlank_digit (by omega),
      isBlank_digit (by omega), ih⟩

/-- There are no blanks in a text that is written. -/
theorem trim_encode (bs : Bytes) : Text.trim (encode bs) = encode bs := by
  refine Text.trim_eq fun c hc => isBlank_of_mem_encodeChars bs c ?_
  rwa [encode, String.toList_ofList] at hc

end Groth16.Base64
