import Groth16.Field.Literal
import Groth16.Proofs.Field.Laws

/-!
# Literals of field elements

An element is written with the decimal digits of the number below the modulus that stands for it.

* `magnitude_of_isDigit`: digits are read as the number that they stand for.
* `parse_toDecimal`: the literal that is written for an element is read as this element.
-/

set_option autoImplicit false

namespace Groth16.Literal

/-! ## Digits -/

theorem decimalDigit?_of_isDigit {c : Char} (h : c.isDigit = true) :
    decimalDigit? c = some (c.toNat - '0'.toNat) := by
  rw [Char.isDigit, Bool.and_eq_true, decide_eq_true_eq, decide_eq_true_eq] at h
  exact if_pos h

theorem isBlank_of_isDigit {c : Char} (h : c.isDigit = true) : Text.isBlank c = false := by
  rw [Char.isDigit, Bool.and_eq_true, decide_eq_true_eq, decide_eq_true_eq] at h
  have hlow : 48 ≤ c.toNat := h.1
  have hhigh : c.toNat ≤ 57 := h.2
  simp only [Text.isBlank, Bool.or_eq_false_iff, Bool.and_eq_false_iff, decide_eq_false_iff_not,
    beq_eq_false_iff_ne]
  omega

/-- Digits stand for the number that they are the digits of. -/
theorem numeral_eq_ofDigitChars {cs : List Char} (h : ∀ c ∈ cs, c.isDigit = true) (start : Nat) :
    numeral 10 decimalDigit? start cs = Nat.ofDigitChars 10 cs start := by
  induction cs generalizing start with
  | nil => rw [Nat.ofDigitChars_nil, numeral, List.foldl_nil]
  | cons c cs ih =>
    rw [List.forall_mem_cons] at h
    have hrest := ih h.2 (10 * start + (c.toNat - '0'.toNat))
    rw [numeral] at hrest ⊢
    rw [Nat.ofDigitChars_cons, List.foldl_cons, decimalDigit?_of_isDigit h.1, Option.getD_some,
      hrest]

/-- Digits are read as the number that they stand for. -/
theorem magnitude_of_isDigit {cs : List Char} (ne : cs ≠ []) (h : ∀ c ∈ cs, c.isDigit = true)
    (literal : String) : magnitude literal cs = .ok (Nat.ofDigitChars 10 cs 0) := by
  have hnone : cs.find? (fun c => (decimalDigit? c).isNone) = none := by
    rw [List.find?_eq_none]
    intro c hc
    rw [decimalDigit?_of_isDigit (h c hc)]
    exact Bool.false_ne_true
  rw [magnitude.eq_def]
  split
  · exact absurd rfl ne
  · exact absurd (h 'x' (by simp)) (by decide)
  · exact absurd (h 'X' (by simp)) (by decide)
  · rw [hnone]
    dsimp only
    rw [numeral_eq_ofDigitChars h]

/-- Digits have no sign, and nothing among them is passed over. -/
theorem split_of_isDigit {cs : List Char} (h : ∀ c ∈ cs, c.isDigit = true) :
    split cs = (false, cs) := by
  have htrim : Text.trimBlank cs = cs := Text.trimBlank_eq fun c hc => isBlank_of_isDigit (h c hc)
  have hfilter : cs.filter (· != '_') = cs := by
    rw [List.filter_eq_self]
    intro c hc
    rw [bne_iff_ne]
    rintro rfl
    exact absurd (h '_' hc) (by decide)
  rw [split, htrim]
  split
  · exact absurd (h '-' (by simp)) (by decide)
  · rw [hfilter]

/-! ## Elements -/

/-- **The literal that is written for an element is read as this element.** -/
theorem parse_toDecimal {K : PrimeField} (a : Fp K) : parse K a.toDecimal = .ok a := by
  have hchars : a.toDecimal.toList = Nat.toDigits 10 a.val := by
    rw [Fp.toDecimal, Nat.repr_eq_ofList_toDigits, String.toList_ofList]
  have hdigits : ∀ c ∈ a.toDecimal.toList, c.isDigit = true := by
    intro c hc
    rw [hchars] at hc
    exact Nat.isDigit_of_mem_toDigits (by decide) (by decide) hc
  have hne : a.toDecimal.toList ≠ [] := by
    rw [hchars]
    exact Nat.toDigits_ne_nil
  rw [parse, split_of_isDigit hdigits]
  change (magnitude a.toDecimal a.toDecimal.toList >>= fun n => pure (Fp.ofNat K n)) = _
  rw [magnitude_of_isDigit hne hdigits, hchars, Nat.ofDigitChars_ten_toDigits]
  exact congrArg Except.ok (Fp.natCast_val a)

end Groth16.Literal
