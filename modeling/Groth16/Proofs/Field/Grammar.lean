import Mathlib.Data.List.Forall2
import Mathlib.Data.List.TakeWhile
import Mathlib.Data.Nat.Digits.Defs
import Groth16.Proofs.Field.Reading
import Groth16.Proofs.Outcome

/-!
# The grammar of literals

What a literal is and what it stands for, said without the steps in which it is read.

* `Trimmed`, `Reads`: a text without the blanks at its ends, and what is left of it behind the sign
  and without the underscores.
* `Digit`, `Numeral`, `Denotes`: the digits of a base, the number that digits stand for, and the
  number that is denoted in decimal or, behind `0x`, in hexadecimal.
* `Verdict`: what is said of an unsigned text, its number or what is wrong with it.  There is a
  verdict on every text, and `magnitude_eq_iff` shows that it is what is computed.
* `parse_iff_grammar`: which literals are read as which elements, and which errors the others have.
-/

set_option autoImplicit false

namespace Groth16.Literal

/-! ## Blanks and signs -/

section
variable {p : Char → Bool} {cs core : List Char}

/-- Dropping from the front leaves what begins at the first character that is kept. -/
theorem dropWhile_eq_iff : cs.dropWhile p = core ↔
    ∃ before, cs = before ++ core ∧ (∀ c ∈ before, p c = true) ∧
      ∀ c ∈ core.head?, p c = false := by
  constructor
  · rintro rfl
    refine ⟨cs.takeWhile p, List.takeWhile_append_dropWhile.symm,
      fun c hc => List.mem_takeWhile_imp hc, fun c hc => ?_⟩
    have hhead := List.head?_dropWhile_not p cs
    rw [Option.mem_def.1 hc] at hhead
    simpa using hhead
  · rintro ⟨before, rfl, dropped, kept⟩
    rw [List.dropWhile_append_of_pos dropped]
    cases core with
    | nil => rfl
    | cons c rest => exact List.dropWhile_cons_of_neg (by simp [kept c rfl])

end

/-- `core` is the text without the blanks at its ends. -/
def Trimmed (cs core : List Char) : Prop :=
  ∃ before after, cs = before ++ core ++ after ∧ (∀ c ∈ before, Text.isBlank c = true) ∧
    (∀ c ∈ after, Text.isBlank c = true) ∧ (∀ c ∈ core.head?, Text.isBlank c = false) ∧
      ∀ c ∈ core.getLast?, Text.isBlank c = false

theorem trimBlank_eq_iff {cs core : List Char} : Text.trimBlank cs = core ↔ Trimmed cs core := by
  have hback : ∀ ds : List Char, (ds.reverse.dropWhile Text.isBlank).reverse = core ↔
      ∃ after, ds = core ++ after ∧ (∀ c ∈ after, Text.isBlank c = true) ∧
        ∀ c ∈ core.getLast?, Text.isBlank c = false := by
    intro ds
    rw [List.reverse_eq_iff, dropWhile_eq_iff, List.head?_reverse]
    constructor
    · rintro ⟨after, h, blank, last⟩
      refine ⟨after.reverse, ?_, fun c hc => blank c (List.mem_reverse.1 hc), last⟩
      rw [← List.reverse_inj, h, List.reverse_append, List.reverse_reverse]
    · rintro ⟨after, rfl, blank, last⟩
      exact ⟨after.reverse, List.reverse_append, fun c hc => blank c (List.mem_reverse.1 hc), last⟩
  rw [Text.trimBlank, Text.trimBlankStart, Text.trimBlankStart, hback]
  constructor
  · rintro ⟨after, hfront, blankAfter, last⟩
    obtain ⟨before, h, blankBefore, first⟩ := dropWhile_eq_iff.1 hfront
    refine ⟨before, after, by rw [h, List.append_assoc], blankBefore, blankAfter, ?_, last⟩
    intro c hc
    exact first c (List.mem_head?_append_of_mem_head? hc)
  · rintro ⟨before, after, rfl, blankBefore, blankAfter, first, last⟩
    cases core with
    | nil =>
      have hall : (before ++ [] ++ after).dropWhile Text.isBlank = [] := by
        rw [List.append_nil, List.dropWhile_eq_nil_iff]
        intro c hc
        exact (List.mem_append.1 hc).elim (blankBefore c) (blankAfter c)
      exact ⟨[], hall, List.forall_mem_nil _, fun _ h => absurd h (Option.not_mem_none _)⟩
    | cons c rest =>
      refine ⟨after, dropWhile_eq_iff.2 ⟨before, List.append_assoc .., blankBefore, ?_⟩, blankAfter,
        last⟩
      exact fun d hd => first d hd

/-- What is left of a text: without blanks at its ends, without a leading minus sign and the blanks
behind that, and without underscores.  The first part of the answer says whether there is a sign. -/
inductive Reads (cs : List Char) : Bool → List Char → Prop
  /-- There is no sign. -/
  | unsigned {core : List Char} (trimmed : Trimmed cs core) (bare : core.head? ≠ some '-') :
      Reads cs false (core.filter (· != '_'))
  /-- There is a sign. -/
  | signed {gap body : List Char} (trimmed : Trimmed cs ('-' :: (gap ++ body)))
      (blank : ∀ c ∈ gap, Text.isBlank c = true)
      (first : ∀ c ∈ body.head?, Text.isBlank c = false) :
      Reads cs true (body.filter (· != '_'))

/-- The sign and the characters behind it are those that are left. -/
theorem split_eq_iff {cs rest : List Char} {negative : Bool} :
    split cs = (negative, rest) ↔ Reads cs negative rest := by
  constructor
  · intro h
    rw [split] at h
    split at h
    · next behind htrim =>
      obtain ⟨rfl, rfl⟩ := Prod.mk.inj h
      obtain ⟨gap, hgap, blank, first⟩ :=
        dropWhile_eq_iff.1 (rfl : behind.dropWhile Text.isBlank = _)
      exact .signed (hgap ▸ trimBlank_eq_iff.1 htrim) blank first
    · next hbare =>
      obtain ⟨rfl, rfl⟩ := Prod.mk.inj h
      refine .unsigned (trimBlank_eq_iff.1 rfl) fun hhead => ?_
      obtain ⟨behind, hcore⟩ := List.head?_eq_some_iff.1 hhead
      exact hbare behind hcore
  · intro h
    cases h with
    | @signed gap body trimmed blank first =>
      rw [split, trimBlank_eq_iff.2 trimmed]
      show (true, ((gap ++ body).dropWhile Text.isBlank).filter (· != '_')) = _
      rw [dropWhile_eq_iff.2 ⟨gap, rfl, blank, first⟩]
    | unsigned trimmed bare =>
      rw [split, trimBlank_eq_iff.2 trimmed]
      split
      · exact absurd rfl bare
      · rfl

/-! ## Digits -/

/-- The character is the digit `k` of the base, of either case. -/
def Digit (base : Nat) (c : Char) (k : Nat) : Prop :=
  k < base ∧ (c = k.digitChar ∨ c = k.digitChar.toUpper)

/-- The characters are digits, at least one, and stand for the number, the last digit counting
one. -/
def Numeral (base : Nat) (cs : List Char) (n : Nat) : Prop :=
  cs ≠ [] ∧ ∃ ks, List.Forall₂ (Digit base) cs ks ∧ n = Nat.ofDigits base ks.reverse

theorem decimalDigit?_eq_some_iff {c : Char} {k : Nat} :
    decimalDigit? c = some k ↔ Digit 10 c k := by
  constructor
  · intro h
    rw [decimalDigit?, Option.ite_none_right_eq_some] at h
    obtain ⟨⟨hlow, hhigh⟩, hk⟩ := h
    have hlow : 48 ≤ c.toNat := hlow
    have hhigh : c.toNat ≤ 57 := hhigh
    have hk : c.toNat - 48 = k := Option.some.inj hk
    have hdigits : ∀ k < 10, Char.ofNat (48 + k) = k.digitChar := by decide
    refine ⟨by omega, .inl ?_⟩
    rw [← hdigits k (by omega), ← hk, Nat.add_sub_cancel' hlow, Char.ofNat_toNat]
  · rintro ⟨hk, hc⟩
    have hdigits : ∀ k < 10, decimalDigit? k.digitChar = some k ∧
        decimalDigit? k.digitChar.toUpper = some k := by decide
    rcases hc with rfl | rfl
    · exact (hdigits k hk).1
    · exact (hdigits k hk).2

theorem hexDigit?_eq_some_iff {c : Char} {k : Nat} : Hex.digit? c = some k ↔ Digit 16 c k := by
  constructor
  · intro h
    rw [Hex.digit?] at h
    split at h
    · next hrange =>
      have hk : c.toNat - 0x30 = k := Option.some.inj h
      have hdigits : ∀ k < 10, Char.ofNat (0x30 + k) = k.digitChar := by decide
      refine ⟨by omega, .inl ?_⟩
      rw [← hdigits k (by omega), ← hk, Nat.add_sub_cancel' hrange.1, Char.ofNat_toNat]
    split at h
    · next hrange =>
      have hk : c.toNat - 0x57 = k := Option.some.inj h
      have hdigits : ∀ k < 16, 10 ≤ k → Char.ofNat (0x57 + k) = k.digitChar := by decide
      refine ⟨by omega, .inl ?_⟩
      rw [← hdigits k (by omega) (by omega), ← hk, Nat.add_sub_cancel' (by omega), Char.ofNat_toNat]
    split at h
    · next hrange =>
      have hk : c.toNat - 0x37 = k := Option.some.inj h
      have hdigits : ∀ k < 16, 10 ≤ k → Char.ofNat (0x37 + k) = k.digitChar.toUpper := by decide
      refine ⟨by omega, .inr ?_⟩
      rw [← hdigits k (by omega) (by omega), ← hk, Nat.add_sub_cancel' (by omega), Char.ofNat_toNat]
    · cases h
  · rintro ⟨hk, hc⟩
    have hdigits : ∀ k < 16, Hex.digit? k.digitChar = some k ∧
        Hex.digit? k.digitChar.toUpper = some k := by decide
    rcases hc with rfl | rfl
    · exact (hdigits k hk).1
    · exact (hdigits k hk).2

section
variable {base : Nat} {digit? : Char → Option Nat} {cs : List Char} {n : Nat}
  (reads : ∀ {c k}, digit? c = some k ↔ Digit base c k)
include reads

theorem isSome_digit?_iff {c : Char} : (digit? c).isSome = true ↔ ∃ k, Digit base c k := by
  rw [Option.isSome_iff_exists]
  exact exists_congr fun _ => reads

/-- Digits are read as the number that they stand for. -/
theorem numeral_eq_ofDigits {ks : List Nat} (h : List.Forall₂ (Digit base) cs ks) :
    numeral base digit? 0 cs = Nat.ofDigits base ks.reverse := by
  have hstart : ∀ start, numeral base digit? start cs =
      ks.foldl (fun n k => base * n + k) start := by
    induction h with
    | nil => exact fun _ => rfl
    | @cons c k cs ks hc _ ih =>
      intro start
      have hrest := ih (base * start + k)
      rw [numeral] at hrest ⊢
      rw [List.foldl_cons, List.foldl_cons, reads.2 hc, Option.getD_some, hrest]
  rw [hstart, Nat.ofDigits_eq_foldr, List.foldr_reverse]
  simp only [Nat.cast_id, Nat.add_comm]

/-- A numeral is read as its number. -/
theorem numeral_iff : Numeral base cs n ↔
    cs ≠ [] ∧ (∀ c ∈ cs, (digit? c).isSome = true) ∧ numeral base digit? 0 cs = n := by
  constructor
  · rintro ⟨ne, ks, hks, rfl⟩
    have hsome : List.Forall₂ (fun c k => (digit? c).isSome = true ∧ Digit base c k) cs ks :=
      hks.imp fun c k hk => ⟨(isSome_digit?_iff reads).2 ⟨k, hk⟩, hk⟩
    exact ⟨ne, ((List.forall₂_and_left _ _).1 hsome).1, numeral_eq_ofDigits reads hks⟩
  · rintro ⟨ne, digits, rfl⟩
    have hks : List.Forall₂ (Digit base) cs (cs.map fun c => (digit? c).getD 0) := by
      rw [List.forall₂_map_right_iff, List.forall₂_same]
      intro c hc
      obtain ⟨k, hk⟩ := Option.isSome_iff_exists.1 (digits c hc)
      rw [hk]
      exact reads.1 hk
    exact ⟨ne, _, hks, numeral_eq_ofDigits reads hks⟩

end

/-! ## Unsigned texts -/

/-- The number that an unsigned text denotes. -/
inductive Denotes (cs : List Char) (n : Nat) : Prop
  /-- In decimal. -/
  | decimal (h : Numeral 10 cs n) : Denotes cs n
  /-- In hexadecimal, behind the mark for it. -/
  | hexadecimal {ds : List Char} (marked : Marked cs ds) (h : Numeral 16 ds n) : Denotes cs n

/-- The character is the first of the text that is not a decimal digit. -/
def FirstNonDigit (cs : List Char) (c : Char) : Prop :=
  ∃ before after, cs = before ++ c :: after ∧ (∀ d ∈ before, ∃ k, Digit 10 d k) ∧
    ¬ ∃ k, Digit 10 c k

/-- What is said of an unsigned text that is part of a literal. -/
inductive Verdict (literal : String) (cs : List Char) : Except LiteralError Nat → Prop
  /-- It denotes a number. -/
  | number {n : Nat} (h : Denotes cs n) : Verdict literal cs (.ok n)
  /-- It is empty. -/
  | empty (h : cs = []) : Verdict literal cs (.error .empty)
  /-- It is marked as hexadecimal, but denotes no number. -/
  | invalidHex {ds : List Char} (marked : Marked cs ds) (h : ¬ ∃ n, Denotes cs n) :
      Verdict literal cs (.error (.invalidHex literal))
  /-- It is not marked and holds a character that is not a digit. -/
  | invalidDigit {c : Char} (bare : ¬ ∃ ds, Marked cs ds) (first : FirstNonDigit cs c) :
      Verdict literal cs (.error (.invalidDigit c literal))

theorem find?_eq_some_iff {cs : List Char} {c : Char} :
    cs.find? (fun c => (decimalDigit? c).isNone) = some c ↔ FirstNonDigit cs c := by
  have hdigit : ∀ d, (decimalDigit? d).isNone = true ↔ ¬ ∃ k, Digit 10 d k := fun d => by
    rw [← isSome_digit?_iff decimalDigit?_eq_some_iff, Bool.not_eq_true, Option.isSome_eq_false_iff]
  have hnot : ∀ d, (!(decimalDigit? d).isNone) = true ↔ ∃ k, Digit 10 d k := fun d => by
    rw [Bool.not_eq_true', ← Bool.not_eq_true, hdigit, not_not]
  rw [List.find?_eq_some_iff_append, hdigit]
  simp only [hnot]
  constructor
  · rintro ⟨hc, before, after, rfl, hbefore⟩
    exact ⟨before, after, rfl, hbefore, hc⟩
  · rintro ⟨before, after, rfl, hbefore, hc⟩
    exact ⟨hc, before, after, rfl, hbefore⟩

section
variable {cs ds : List Char} (literal : String)

/-- **Something is to be said of every text.** -/
theorem exists_verdict (cs : List Char) : ∃ r, Verdict literal cs r := by
  by_cases hnumber : ∃ n, Denotes cs n
  · obtain ⟨n, hn⟩ := hnumber
    exact ⟨_, .number hn⟩
  by_cases hempty : cs = []
  · exact ⟨_, .empty hempty⟩
  by_cases hmarked : ∃ ds, Marked cs ds
  · obtain ⟨ds, marked⟩ := hmarked
    exact ⟨_, .invalidHex marked hnumber⟩
  · cases hfind : cs.find? (fun c => (decimalDigit? c).isNone) with
    | some c => exact ⟨_, .invalidDigit hmarked (find?_eq_some_iff.1 hfind)⟩
    | none =>
      have digits : ∀ c ∈ cs, (decimalDigit? c).isSome = true := fun c hc =>
        Option.isSome_iff_ne_none.2 fun h =>
          absurd (List.find?_eq_none.1 hfind c hc) (by rw [h]; exact not_not.2 rfl)
      have hnumeral := (numeral_iff decimalDigit?_eq_some_iff).2 ⟨hempty, digits, rfl⟩
      exact absurd ⟨_, Denotes.decimal hnumeral⟩ hnumber

/-- A text of digits is not marked. -/
theorem not_marked_of_digits (digits : ∀ c ∈ cs, (decimalDigit? c).isSome = true) :
    ¬ ∃ ds, Marked cs ds := by
  rintro ⟨ds, rfl | rfl⟩
  · exact absurd (digits 'x' (by simp)) (by decide)
  · exact absurd (digits 'X' (by simp)) (by decide)

theorem hexadecimal_eq_ok_iff {n : Nat} :
    magnitude.hexadecimal literal ds = .ok n ↔ Numeral 16 ds n := by
  rw [numeral_iff hexDigit?_eq_some_iff, magnitude.hexadecimal]
  simp only [Bool.and_eq_true, Bool.not_eq_true', List.isEmpty_eq_false_iff, List.all_eq_true]
  split
  · next hdigits => rw [and_iff_right hdigits.1, and_iff_right hdigits.2, Except.ok.injEq]
  · next hdigits => exact iff_of_false (by simp) fun h => hdigits ⟨h.1, h.2.1⟩

/-- **What is computed is what is to be said.** -/
theorem magnitude_eq_iff {r : Except LiteralError Nat} :
    magnitude literal cs = r ↔ Verdict literal cs r := by
  have hcomplete : ∀ r, Verdict literal cs r → magnitude literal cs = r := by
    intro r verdict
    cases verdict with
    | number denotes =>
      cases denotes with
      | decimal h =>
        obtain ⟨ne, digits, rfl⟩ := (numeral_iff decimalDigit?_eq_some_iff).1 h
        have hnone : cs.find? (fun c => (decimalDigit? c).isNone) = none := by
          rw [List.find?_eq_none]
          intro c hc
          rw [Option.isNone_iff_eq_none, ← Ne, ← Option.isSome_iff_ne_none]
          exact digits c hc
        rw [magnitude_of_bare literal ne (not_marked_of_digits digits), hnone]
      | hexadecimal marked h =>
        rw [magnitude_of_marked literal marked, hexadecimal_eq_ok_iff]
        exact h
    | empty h =>
      rw [h]
      rfl
    | @invalidHex ds marked none =>
      rw [magnitude_of_marked literal marked]
      cases hr : magnitude.hexadecimal literal ds with
      | ok n => exact absurd ⟨n, .hexadecimal marked ((hexadecimal_eq_ok_iff literal).1 hr)⟩ none
      | error e =>
        rw [magnitude.hexadecimal] at hr
        split at hr
        · cases hr
        · exact hr.symm
    | invalidDigit bare first =>
      have hfind := find?_eq_some_iff.2 first
      have ne : cs ≠ [] := by
        rintro rfl
        cases hfind
      rw [magnitude_of_bare literal ne bare, hfind]
  constructor
  · rintro rfl
    obtain ⟨r, verdict⟩ := exists_verdict literal cs
    rwa [hcomplete r verdict]
  · exact hcomplete r

end

/-! ## Literals -/

/-- A sign and a magnitude are the integer that they stand for, modulo the modulus. -/
theorem val_signed (K : PrimeField) (negative : Bool) (n : Nat) :
    ((if negative then -Fp.ofNat K n else Fp.ofNat K n).val : ℤ) =
      (if negative then -(n : ℤ) else n) % K.modulus := by
  cases negative with
  | false => exact Int.natCast_mod n K.modulus
  | true =>
    have hle : n % K.modulus ≤ K.modulus := (Nat.mod_lt n K.modulus_pos).le
    have hshift : (K.modulus : ℤ) - n % K.modulus = -n + K.modulus * (1 + n / K.modulus) := by
      have := Int.mul_ediv_add_emod n K.modulus
      linarith
    rw [if_pos rfl, if_pos rfl, Fp.val_neg, Fp.val_ofNat, Int.natCast_mod, Nat.cast_sub hle,
      Int.natCast_mod, hshift, Int.add_mul_emod_self_left]

theorem parse_eq {K : PrimeField} {s : String} {negative : Bool} {rest : List Char}
    (h : split s.toList = (negative, rest)) :
    parse K s = (magnitude s rest).map fun n =>
      if negative then -Fp.ofNat K n else Fp.ofNat K n := by
  rw [parse, h]
  rfl

section
variable {K : PrimeField} {s : String} {negative : Bool} {rest : List Char}
  (h : split s.toList = (negative, rest))
include h

theorem parse_eq_ok_iff {a : Fp K} : parse K s = .ok a ↔
    ∃ n, Denotes rest n ∧ (if negative then -Fp.ofNat K n else Fp.ofNat K n) = a := by
  rw [parse_eq h]
  constructor
  · intro hok
    obtain ⟨n, hn, ha⟩ := Outcome.map_eq_ok.1 hok
    cases (magnitude_eq_iff s).1 hn with
    | number denotes => exact ⟨n, denotes, ha⟩
  · rintro ⟨n, denotes, rfl⟩
    rw [(magnitude_eq_iff s).2 (.number denotes)]
    rfl

theorem parse_eq_error_iff {e : LiteralError} :
    parse K s = .error e ↔ Verdict s rest (.error e) := by
  rw [parse_eq h, ← magnitude_eq_iff]
  cases magnitude s rest with
  | ok n => exact iff_of_false nofun nofun
  | error e' => exact ⟨fun he => congrArg _ (Except.error.inj he), fun he =>
      congrArg _ (Except.error.inj he)⟩

theorem exists_parse_iff : (∃ a, parse K s = .ok a) ↔ ∃ n, Denotes rest n := by
  constructor
  · rintro ⟨a, ha⟩
    obtain ⟨n, denotes, -⟩ := (parse_eq_ok_iff h).1 ha
    exact ⟨n, denotes⟩
  · rintro ⟨n, denotes⟩
    exact ⟨_, (parse_eq_ok_iff h).2 ⟨n, denotes, rfl⟩⟩

theorem val_of_parse {a : Fp K} {n : Nat} (ha : parse K s = .ok a) (denotes : Denotes rest n) :
    (a.val : ℤ) = (if negative then -(n : ℤ) else n) % K.modulus := by
  have hsigned := (parse_eq_ok_iff (K := K) h).2 ⟨n, denotes, rfl⟩
  rw [Except.ok.inj (ha.symm.trans hsigned), val_signed]

theorem parse_eq_empty_iff : parse K s = .error .empty ↔ rest = [] := by
  rw [parse_eq_error_iff h]
  constructor
  · intro verdict
    cases verdict with
    | empty none => exact none
  · exact .empty

theorem parse_eq_invalidHex_iff {t : String} : parse K s = .error (.invalidHex t) ↔
    t = s ∧ (∃ ds, Marked rest ds) ∧ ¬ ∃ n, Denotes rest n := by
  rw [parse_eq_error_iff h]
  constructor
  · intro verdict
    cases verdict with
    | invalidHex marked none => exact ⟨rfl, ⟨_, marked⟩, none⟩
  · rintro ⟨rfl, ⟨ds, marked⟩, none⟩
    exact .invalidHex marked none

theorem parse_eq_invalidDigit_iff {c : Char} {t : String} :
    parse K s = .error (.invalidDigit c t) ↔
      t = s ∧ (¬ ∃ ds, Marked rest ds) ∧ FirstNonDigit rest c := by
  rw [parse_eq_error_iff h]
  constructor
  · intro verdict
    cases verdict with
    | invalidDigit bare first => exact ⟨rfl, bare, first⟩
  · rintro ⟨rfl, bare, first⟩
    exact .invalidDigit bare first

end

/-- **The grammar of literals.**  Every text leaves one text to be read, with or without a sign.
The literal is read exactly if that denotes a number, as the integer modulo the modulus.  Otherwise
it is empty, or it is marked as hexadecimal, or the first character that is no digit is reported.
The same elements and errors come from reading digit by digit and byte by byte in the field. -/
theorem parse_iff_grammar (K : PrimeField) (s : String) :
    ∃ negative rest, Reads s.toList negative rest ∧
      (∀ negative' rest', Reads s.toList negative' rest' → negative' = negative ∧ rest' = rest) ∧
      ((∃ a, parse K s = .ok a) ↔ ∃ n, Denotes rest n) ∧
      (∀ a n, parse K s = .ok a → Denotes rest n →
        (a.val : ℤ) = (if negative then -(n : ℤ) else n) % K.modulus) ∧
      (parse K s = .error .empty ↔ rest = []) ∧
      (∀ t, parse K s = .error (.invalidHex t) ↔
        t = s ∧ (∃ ds, Marked rest ds) ∧ ¬ ∃ n, Denotes rest n) ∧
      (∀ c t, parse K s = .error (.invalidDigit c t) ↔
        t = s ∧ (¬ ∃ ds, Marked rest ds) ∧ FirstNonDigit rest c) ∧
      parse K s = read K s := by
  obtain ⟨negative, rest, h⟩ : ∃ negative rest, split s.toList = (negative, rest) := ⟨_, _, rfl⟩
  refine ⟨negative, rest, split_eq_iff.1 h, fun negative' rest' h' => ?_, exists_parse_iff h,
    fun a n => val_of_parse h, parse_eq_empty_iff h, fun t => parse_eq_invalidHex_iff h,
    fun c t => parse_eq_invalidDigit_iff h, parse_eq_read K s⟩
  exact Prod.mk.inj ((split_eq_iff.2 h').symm.trans h)

end Groth16.Literal
