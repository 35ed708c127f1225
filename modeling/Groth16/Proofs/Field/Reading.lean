import Groth16.Proofs.Field.Literal

/-!
# Literals read in the field

A literal may have any length, and there is no need for the integer that it denotes.  Decimal digits
can be read one after the other, with the value so far reduced modulo the modulus; hexadecimal
digits are read in pairs, as bytes, with a zero in front of an odd number of them.

* `readDecimal`, `readHexadecimal`: the two readings.
* `Hex.decodeChars?_of_digits`: pairs of digits are bytes of the number that they stand for.
* `parse_eq_read`: a literal is read this way, errors included.
-/

set_option autoImplicit false

namespace Groth16

/-! ## Pairs of digits -/

namespace Hex

open Literal (numeral)

/-- Only digits are decoded. -/
theorem isSome_of_decodeChars? {cs : List Char} {bs : Bytes} (h : decodeChars? cs = some bs) :
    ∀ c ∈ cs, (digit? c).isSome = true := by
  induction cs using decodeChars?.induct generalizing bs with
  | case1 => nofun
  | case2 => cases h
  | case3 c d rest ih =>
    obtain ⟨high, hhigh, h⟩ := Option.bind_eq_some_iff.1 h
    obtain ⟨low, hlow, h⟩ := Option.bind_eq_some_iff.1 h
    obtain ⟨bs', hrest, -⟩ := Option.bind_eq_some_iff.1 h
    rw [List.forall_mem_cons, List.forall_mem_cons, hhigh, hlow]
    exact ⟨rfl, rfl, ih hrest⟩

theorem digit?_lt {c : Char} {k : Nat} (h : digit? c = some k) : k < 16 := by
  rw [digit?] at h
  split at h
  · cases h
    omega
  split at h
  · cases h
    omega
  split at h
  · cases h
    omega
  · cases h

/-- An even number of digits is decoded, as the bytes of the number that they stand for. -/
theorem decodeChars?_of_digits {cs : List Char} (even : cs.length % 2 = 0)
    (digits : ∀ c ∈ cs, (digit? c).isSome = true) :
    ∃ bs, decodeChars? cs = some bs ∧ Bytes.ofBigEndian bs = numeral 16 digit? 0 cs := by
  have hall : ∃ bs, decodeChars? cs = some bs ∧ ∀ start,
      bs.foldl (fun n b => 256 * n + b.toNat) start = numeral 16 digit? start cs := by
    induction cs using decodeChars?.induct with
    | case1 => exact ⟨[], rfl, fun _ => rfl⟩
    | case2 => cases even
    | case3 c d rest ih =>
      rw [List.forall_mem_cons, List.forall_mem_cons] at digits
      rw [List.length_cons, List.length_cons] at even
      obtain ⟨high, hhigh⟩ := Option.isSome_iff_exists.1 digits.1
      obtain ⟨low, hlow⟩ := Option.isSome_iff_exists.1 digits.2.1
      obtain ⟨bs, hbs, hvalue⟩ := ih (by omega) digits.2.2
      refine ⟨UInt8.ofNat (16 * high + low) :: bs, ?_, fun start => ?_⟩
      · rw [decodeChars?, hhigh, hlow, hbs]
        rfl
      · have hhigh' := digit?_lt hhigh
        have hlow' := digit?_lt hlow
        have hbyte : (UInt8.ofNat (16 * high + low)).toNat = 16 * high + low := by
          rw [UInt8.toNat_ofNat']
          omega
        have hstart : 256 * start + (16 * high + low) = 16 * (16 * start + high) + low := by omega
        rw [List.foldl_cons, hvalue, hbyte, hstart, numeral, numeral, List.foldl_cons,
          List.foldl_cons, hhigh, hlow, Option.getD_some, Option.getD_some]
  obtain ⟨bs, hbs, hvalue⟩ := hall
  exact ⟨bs, hbs, hvalue 0⟩

end Hex

namespace Literal

variable {K : PrimeField}

/-! ## Unsigned texts -/

/-- The text is `ds` behind `0x` or `0X`. -/
def Marked (cs ds : List Char) : Prop := cs = '0' :: 'x' :: ds ∨ cs = '0' :: 'X' :: ds

section
variable {cs ds : List Char} (literal : String)

theorem magnitude_of_marked (marked : Marked cs ds) :
    magnitude literal cs = magnitude.hexadecimal literal ds := by
  rcases marked with rfl | rfl
  · rfl
  · rfl

theorem magnitude_of_bare (ne : cs ≠ []) (bare : ¬ ∃ ds, Marked cs ds) :
    magnitude literal cs =
      match cs.find? (fun c => (decimalDigit? c).isNone) with
      | some c => .error (.invalidDigit c literal)
      | none => .ok (numeral 10 decimalDigit? 0 cs) := by
  rw [magnitude.eq_def]
  split
  · exact absurd rfl ne
  · exact absurd ⟨_, .inl rfl⟩ bare
  · exact absurd ⟨_, .inr rfl⟩ bare
  · rfl

end

/-! ## The two readings -/

/-- Decimal digits, read one after the other behind those that stand for `a`.  The first character
that is no digit is an error. -/
def readDecimal (literal : String) (a : Fp K) : List Char → Except LiteralError (Fp K)
  | [] => .ok a
  | c :: cs =>
    match decimalDigit? c with
    | some d => readDecimal literal (a * 10 + (d : Fp K)) cs
    | none => .error (.invalidDigit c literal)

/-- The characters, with a zero in front if their text has an odd number of bytes. -/
def padded (ds : List Char) : List Char :=
  if (String.ofList ds).utf8ByteSize % 2 = 1 then '0' :: ds else ds

/-- Hexadecimal digits, read as bytes. -/
def readHexadecimal (K : PrimeField) (literal : String) (ds : List Char) :
    Except LiteralError (Fp K) :=
  if ds.isEmpty then .error (.invalidHex literal)
  else
    match Hex.decodeChars? (padded ds) with
    | some bs => .ok (Fp.ofNat K (Bytes.ofBigEndian bs))
    | none => .error (.invalidHex literal)

/-- An unsigned text. -/
def readUnsigned (K : PrimeField) (literal : String) : List Char → Except LiteralError (Fp K)
  | [] => .error .empty
  | '0' :: 'x' :: ds => readHexadecimal K literal ds
  | '0' :: 'X' :: ds => readHexadecimal K literal ds
  | ds => readDecimal literal 0 ds

/-- A literal. -/
def read (K : PrimeField) (literal : String) : Except LiteralError (Fp K) := do
  let (negative, body) := split literal.toList
  let a ← readUnsigned K literal body
  return if negative then -a else a

/-- Reading decimal digits in the field is reading them as a number. -/
theorem readDecimal_eq (literal : String) (n : Nat) (cs : List Char) :
    readDecimal literal (n : Fp K) cs =
      match cs.find? (fun c => (decimalDigit? c).isNone) with
      | some c => .error (.invalidDigit c literal)
      | none => .ok (Fp.ofNat K (numeral 10 decimalDigit? n cs)) := by
  induction cs generalizing n with
  | nil => rfl
  | cons c cs ih =>
    rw [readDecimal]
    cases hdigit : decimalDigit? c with
    | none =>
      rw [List.find?_cons_of_pos (by rw [hdigit]; rfl)]
    | some d =>
      have hcast : (n : Fp K) * 10 + (d : Fp K) = ((10 * n + d : Nat) : Fp K) := by
        push_cast
        ring
      rw [List.find?_cons_of_neg (by rw [hdigit]; exact Bool.false_ne_true), numeral,
        List.foldl_cons, hdigit, Option.getD_some, ← numeral]
      dsimp only
      rw [hcast, ih]

theorem utf8Size_of_digit? {c : Char} (h : (Hex.digit? c).isSome = true) : c.utf8Size = 1 := by
  rw [Char.utf8Size_eq_one_iff]
  show c.toNat ≤ 127
  rw [Hex.digit?] at h
  split at h
  · omega
  split at h
  · omega
  split at h
  · omega
  · cases h

/-- Digits take one byte each. -/
theorem utf8ByteSize_of_digits {ds : List Char} (digits : ∀ c ∈ ds, (Hex.digit? c).isSome = true) :
    (String.ofList ds).utf8ByteSize = ds.length := by
  induction ds with
  | nil => rfl
  | cons c ds ih =>
    rw [List.forall_mem_cons] at digits
    rw [String.ofList_cons, String.utf8ByteSize_append, String.utf8ByteSize_singleton,
      utf8Size_of_digit? digits.1, ih digits.2, List.length_cons, Nat.add_comm]

/-- Digits are padded to an even number of digits that stand for the same number. -/
theorem padded_of_digits {ds : List Char} (digits : ∀ c ∈ ds, (Hex.digit? c).isSome = true) :
    (padded ds).length % 2 = 0 ∧ (∀ c ∈ padded ds, (Hex.digit? c).isSome = true) ∧
      numeral 16 Hex.digit? 0 (padded ds) = numeral 16 Hex.digit? 0 ds := by
  rw [padded, utf8ByteSize_of_digits digits]
  split
  · next odd =>
    rw [List.length_cons]
    exact ⟨by omega, List.forall_mem_cons.2 ⟨by decide, digits⟩, rfl⟩
  · next odd => exact ⟨by omega, digits, rfl⟩

/-- Reading hexadecimal digits as bytes is reading them as a number. -/
theorem readHexadecimal_eq (literal : String) (ds : List Char) :
    readHexadecimal K literal ds = (magnitude.hexadecimal literal ds).map (Fp.ofNat K) := by
  rw [readHexadecimal, magnitude.hexadecimal]
  cases hempty : ds.isEmpty with
  | true => rfl
  | false =>
    by_cases digits : ∀ c ∈ ds, (Hex.digit? c).isSome = true
    · obtain ⟨even, hpadded, hvalue⟩ := padded_of_digits digits
      obtain ⟨bs, hbs, hnumber⟩ := Hex.decodeChars?_of_digits even hpadded
      rw [hbs, List.all_eq_true.2 digits]
      show Except.ok (Fp.ofNat K (Bytes.ofBigEndian bs)) = .ok _
      rw [hnumber, hvalue]
    · have hnone : Hex.decodeChars? (padded ds) = none := by
        rw [Option.eq_none_iff_forall_ne_some]
        intro bs hbs
        have hpadded := Hex.isSome_of_decodeChars? hbs
        refine digits fun c hc => hpadded c ?_
        rw [padded]
        split
        · exact List.mem_cons_of_mem _ hc
        · exact hc
      rw [hnone, Bool.eq_false_iff.2 (mt List.all_eq_true.1 digits)]
      rfl

/-- Reading an unsigned text in the field is reading it as a number. -/
theorem readUnsigned_eq (literal : String) (cs : List Char) :
    readUnsigned K literal cs = (magnitude literal cs).map (Fp.ofNat K) := by
  rw [readUnsigned.eq_def]
  split
  · rfl
  · exact readHexadecimal_eq literal _
  · exact readHexadecimal_eq literal _
  · next ne hlower hupper =>
    have hread := readDecimal_eq (K := K) literal 0 cs
    rw [Nat.cast_zero] at hread
    have bare : ¬ ∃ ds, Marked cs ds := by
      rintro ⟨ds, h | h⟩
      · exact hlower ds h
      · exact hupper ds h
    rw [hread, magnitude_of_bare literal ne bare]
    split
    · rfl
    · rfl

/-- **A literal is read in the field**, digit by digit or byte by byte, as what it denotes. -/
theorem parse_eq_read (K : PrimeField) (literal : String) : parse K literal = read K literal := by
  rw [parse, read]
  rcases split literal.toList with ⟨negative, body⟩
  dsimp only
  rw [readUnsigned_eq]
  cases magnitude literal body with
  | ok n => rfl
  | error e => rfl

end Literal

end Groth16
