import Groth16.Json.Record
import Groth16.Proofs.Data.Dictionary
import Groth16.Statement.Files

/-!
# Reading what was written as JSON

The text of an object is read back member by member.  A text between quotes is the same text again,
whatever characters it has; a reader that passes over it stops behind its closing quote, though it
takes some escapes for other characters.

* `JsonReader.run_quotedText`: a quoted text is read as the text.
* `JsonReader.run_dictionary`: an object of texts is read as the texts by name.
* `JsonReader.run_members_cons`: a member that is a field is read, and one that is not is passed
  over.
-/

set_option autoImplicit false

namespace Groth16

namespace JsonValue

/-! ## Characters between quotes -/

theorem reads_shortEscape {c letter : Char} (h : shortEscape? c = some letter) :
    JsonReader.shortEscape? letter = some c ∧ letter ≠ 'u' := by
  unfold shortEscape? at h
  split at h
  all_goals cases h
  all_goals exact ⟨rfl, by decide⟩

theorem fourDigits_control {n : Nat} (h : n < 0x20) (rest : List Char) :
    JsonReader.fourDigits ('0' :: '0' :: Hex.digit (n / 16) :: Hex.digit (n % 16) :: rest) =
      .ok n := by
  have hclosed : ∀ n < 0x20,
      JsonReader.fourDigits ['0', '0', Hex.digit (n / 16), Hex.digit (n % 16)] = .ok n := by
    decide
  exact hclosed n h

/-- How a character is written: as itself, or with an escape that is read as the character, and
that a reader which passes over it takes for some character. -/
theorem quoteChar_cases (c : Char) :
    (quoteChar c = [c] ∧ c ≠ '"' ∧ c ≠ '\\' ∧ ¬ c.toNat < 0x20) ∨
    ∃ es, quoteChar c = '\\' :: es ∧ ∀ rest,
      JsonReader.escape (es ++ rest) = .ok (c, es.length) ∧
      ∃ d, JsonReader.looseEscape (es ++ rest) = .ok (d, es.length) := by
  rw [quoteChar]
  cases hshort : shortEscape? c with
  | some letter =>
    obtain ⟨hback, hne⟩ := reads_shortEscape hshort
    have hread : ∀ rest, JsonReader.escape (letter :: rest) = .ok (c, 1) := by
      intro rest
      rw [JsonReader.escape, hback]
      exact hne
    refine .inr ⟨[letter], rfl, fun rest => ⟨hread rest, c, ?_⟩⟩
    rw [List.singleton_append, JsonReader.looseEscape, hread rest]
    · rfl
    · exact fun cs h => hne (List.cons.inj h).1
  | none =>
    have hplain : c ≠ '"' ∧ c ≠ '\\' := by
      constructor
      · rintro rfl
        cases hshort
      · rintro rfl
        cases hshort
    by_cases hcontrol : c.toNat < 0x20
    · refine .inr ⟨_, if_pos hcontrol, fun rest => ?_⟩
      have hdigits := fourDigits_control hcontrol rest
      have hlow : JsonReader.isLowHalf c.toNat = false := by
        simp only [JsonReader.isLowHalf, Bool.and_eq_false_iff, decide_eq_false_iff_not]
        omega
      have hhigh : JsonReader.isHighHalf c.toNat = false := by
        simp only [JsonReader.isHighHalf, Bool.and_eq_false_iff, decide_eq_false_iff_not]
        omega
      have hnumeric : JsonReader.numericEscape
          ('0' :: '0' :: Hex.digit (c.toNat / 16) :: Hex.digit (c.toNat % 16) :: rest) =
          .ok (c, 4) := by
        rw [JsonReader.numericEscape, hdigits]
        simp only [bind, Except.bind, hlow, hhigh, Char.ofNat_toNat]
        rfl
      constructor
      · simp only [List.cons_append, List.nil_append, JsonReader.escape, hnumeric]
        rfl
      · refine ⟨'u', ?_⟩
        simp only [List.cons_append, List.nil_append, JsonReader.looseEscape, hdigits]
        rfl
    · exact .inl ⟨if_neg hcontrol, hplain.1, hplain.2, hcontrol⟩

/-! ## Objects -/

/-- The characters of the members of an object that are left. -/
def membersFrom (first : Bool) : List (String × JsonValue) → List Char
  | [] => []
  | (name, v) :: ms =>
    (if first then [] else [',']) ++ ((quote name).toList ++ ':' :: v.compact.toList) ++
      membersFrom false ms

/-- Every member has characters of its own, and so has the closing brace. -/
theorem length_lt_membersFrom (first : Bool) (ms : List (String × JsonValue)) (rest : List Char) :
    ms.length < (membersFrom first ms ++ '\x7d' :: rest).length + 1 := by
  induction ms generalizing first with
  | nil => exact Nat.succ_pos _
  | cons m ms ih =>
    have hrest := ih false
    rw [membersFrom]
    simp only [List.length_append, List.length_cons] at hrest ⊢
    omega

theorem toList_joined_compactMembers : ∀ ms : List (String × JsonValue),
    (joined "," (compactMembers ms)).toList = membersFrom true ms
  | [] => rfl
  | [(name, v)] => by simp [compactMembers, membersFrom, joined]
  | (name, v) :: (name', v') :: ms => by
    have hrest := toList_joined_compactMembers ((name', v') :: ms)
    rw [compactMembers, joined] at hrest
    rw [compactMembers, compactMembers, joined, String.intercalate_cons_cons, String.toList_append,
      hrest]
    simp [membersFrom]

/-- The text of an object is its members between braces. -/
theorem toList_compact_object (ms : List (String × JsonValue)) :
    (object ms).compact.toList = '\x7b' :: membersFrom true ms ++ ['\x7d'] := by
  rw [compact, String.toList_append, String.toList_append, toList_joined_compactMembers]
  rfl

end JsonValue

namespace JsonReader

open JsonValue (quoteChar quoteChar_cases)

variable {α β : Type}

/-! ## Quoted texts -/

/-- A reader that does what it does with characters that stand for themselves, and with escapes. -/
theorem quoted_quoteChar (c : Char) (done rest : List Char) :
    quoted escape done (quoteChar c ++ rest) = quoted escape (c :: done) rest ∧
    ∃ d, quoted looseEscape done (quoteChar c ++ rest) = quoted looseEscape (d :: done) rest := by
  rcases quoteChar_cases c with ⟨hc, hquote, hback, hcontrol⟩ | ⟨es, hc, hread⟩
  · have hplain : ∀ esc, quoted esc done (c :: rest) = quoted esc (c :: done) rest := by
      intro esc
      rw [quoted, if_neg hcontrol]
      · exact hquote
      · exact hback
    rw [hc]
    exact ⟨hplain escape, c, hplain looseEscape⟩
  · have hescaped : ∀ {esc} {d : Char}, esc (es ++ rest) = .ok (d, es.length) →
        quoted esc done ('\\' :: (es ++ rest)) = quoted esc (d :: done) rest := by
      intro esc d h
      rw [quoted, h]
      dsimp only
      rw [List.drop_left]
    obtain ⟨hescape, d, hloose⟩ := hread rest
    rw [hc, List.cons_append]
    exact ⟨hescaped hescape, d, hescaped hloose⟩

/-- A text between quotes is the text again, if the escapes are read. -/
theorem quoted_escape (cs done rest : List Char) :
    quoted escape done (cs.flatMap quoteChar ++ '"' :: rest) =
      .ok (String.ofList (done.reverse ++ cs), rest) := by
  induction cs generalizing done with
  | nil => rw [List.flatMap_nil, List.nil_append, quoted, List.append_nil]
  | cons c cs ih =>
    rw [List.flatMap_cons, List.append_assoc, (quoted_quoteChar c done _).1, ih,
      List.reverse_cons, List.append_assoc, List.singleton_append]

/-- A text between quotes is some text, if the escapes are passed over. -/
theorem quoted_looseEscape (cs done rest : List Char) :
    ∃ s, quoted looseEscape done (cs.flatMap quoteChar ++ '"' :: rest) = .ok (s, rest) := by
  induction cs generalizing done with
  | nil =>
    rw [List.flatMap_nil, List.nil_append, quoted]
    exact ⟨_, rfl⟩
  | cons c cs ih =>
    obtain ⟨d, hd⟩ := (quoted_quoteChar c done (cs.flatMap quoteChar ++ '"' :: rest)).2
    rw [List.flatMap_cons, List.append_assoc, hd]
    exact ih (d :: done)

/-! ## Sequences of readers -/

theorem run_bind_of_ok {x : JsonReader α} {f : α → JsonReader β} {cs mid : List Char} {a : α}
    (h : x.run cs = .ok (a, mid)) : (x >>= f).run cs = (f a).run mid := by
  rw [StateT.run_bind, h]
  rfl

theorem run_peek {c : Char} (h : isGap c = false) (cs : List Char) :
    peek.run (c :: cs) = .ok (some c, c :: cs) := by
  have hgap : ¬ isGap c = true := by simp [h]
  show Except.ok (((c :: cs).dropWhile isGap).head?, (c :: cs).dropWhile isGap) = _
  rw [List.dropWhile_cons_of_neg hgap]
  rfl

theorem run_expect {c : Char} (h : isGap c = false) (cs : List Char) :
    (expect c).run (c :: cs) = .ok ((), cs) := by
  rw [expect, run_bind_of_ok (run_peek h cs)]
  dsimp only
  rw [if_pos rfl]
  rfl

/-- Where the next character is taken, what follows it is read. -/
theorem run_peek_advance {c : Char} (gap : isGap c = false) {f : Option Char → JsonReader β}
    {next : JsonReader β} (h : f (some c) = advance >>= fun _ => next) {cs : List Char}
    {r : Except JsonFault (β × List Char)} (hnext : next.run cs = r) :
    (peek >>= f).run (c :: cs) = r := by
  rw [run_bind_of_ok (run_peek gap cs), h, ← hnext]
  rfl

theorem run_get_bind (f : List Char → JsonReader β) (cs : List Char) :
    (get >>= f).run cs = (f cs).run cs := rfl

/-! ## Texts -/

theorem toList_quote_append (s : String) (rest : List Char) : (JsonValue.quote s).toList ++ rest =
    '"' :: (s.toList.flatMap quoteChar ++ '"' :: rest) := by
  rw [JsonValue.quote, String.toList_ofList]
  simp

/-- **A quoted text is read as the text.** -/
theorem run_quotedText (s : String) (rest : List Char) :
    quotedText.run (s.toList.flatMap quoteChar ++ '"' :: rest) = .ok (s, rest) := by
  show quoted escape [] _ = _
  rw [quoted_escape, List.reverse_nil, List.nil_append, String.ofList_toList]

theorem run_text (s : String) (rest : List Char) :
    text.run ((JsonValue.quote s).toList ++ rest) = .ok (s, rest) := by
  rw [toList_quote_append, text, run_bind_of_ok (run_peek (by decide) _)]
  exact run_quotedText s rest

/-- A quoted text is passed over. -/
theorem run_skip_quote (s : String) (rest : List Char) :
    skip.run ((JsonValue.quote s).toList ++ rest) = .ok ((), rest) := by
  obtain ⟨s', hs'⟩ := quoted_looseEscape s.toList [] rest
  have hscalar : (skipScalar '"').run ('"' :: (s.toList.flatMap quoteChar ++ '"' :: rest)) =
      .ok ((), rest) := by
    have hskip : skipText.run (s.toList.flatMap quoteChar ++ '"' :: rest) = .ok ((), rest) := by
      show (quoted looseEscape [] _).map (fun p => ((), p.2)) = _
      rw [hs']
      rfl
    exact hskip
  rw [toList_quote_append, skip, run_get_bind, skipFrom, run_bind_of_ok (run_peek (by decide) _)]
  exact run_bind_of_ok hscalar

/-! ## Members -/

open JsonValue (membersFrom)

variable {fs : List JsonField} {f : JsonField} {steps : Nat} {first : Bool} {name : String}
  {v : JsonValue} {ms : List (String × JsonValue)} {cs rest : List Char}

/-- The name of the next member is read, with the comma in front of it. -/
theorem run_nextName (first : Bool) (name : String) (rest : List Char) :
    (nextName first).run
        ((if first then [] else [',']) ++ ((JsonValue.quote name).toList ++ rest)) =
      .ok (some name, rest) := by
  rw [toList_quote_append]
  have hname : (do return some (← quotedText) : JsonReader (Option String)).run
      (name.toList.flatMap quoteChar ++ '"' :: rest) = .ok (some name, rest) :=
    run_bind_of_ok (f := fun s => pure (some s)) (run_quotedText name rest)
  cases first with
  | true =>
    rw [if_pos rfl, List.nil_append, nextName, run_bind_of_ok (run_peek (by decide) _)]
    exact run_peek_advance (by decide) rfl hname
  | false =>
    rw [if_neg Bool.false_ne_true, List.singleton_append, nextName]
    refine run_peek_advance (by decide) rfl ?_
    exact run_peek_advance (by decide) rfl hname

theorem run_nextName_end (first : Bool) (rest : List Char) :
    (nextName first).run ('\x7d' :: rest) = .ok (none, rest) := by
  rw [nextName, run_bind_of_ok (run_peek (by decide) _)]
  rfl

theorem run_textMembers (es : List (String × String)) {d : Dictionary String}
    (enough : es.length < steps) :
    (textMembers steps first d).run
      (membersFrom first (es.map fun e => (e.1, .text e.2)) ++ '\x7d' :: rest) =
        .ok (d.insertAll es, rest) := by
  induction es generalizing steps first d with
  | nil =>
    obtain ⟨steps, rfl⟩ := Nat.exists_eq_add_of_lt enough
    rw [textMembers]
    exact run_bind_of_ok (run_nextName_end first rest)
  | cons e es ih =>
    obtain ⟨steps, rfl⟩ : ∃ n, steps = n + 1 := ⟨steps - 1, by omega⟩
    rw [List.length_cons] at enough
    rw [List.map_cons, membersFrom, textMembers]
    simp only [List.append_assoc]
    rw [run_bind_of_ok (run_nextName first e.1 _)]
    dsimp only
    rw [List.cons_append, run_bind_of_ok (run_expect (by decide) _), JsonValue.compact,
      run_bind_of_ok (run_text e.2 _)]
    exact ih (by omega)

/-- **An object of texts is read as the texts by name.** -/
theorem run_dictionary (d : Dictionary String) (rest : List Char) :
    dictionary.run ((literalsValue d).compact.toList ++ rest) = .ok (d, rest) := by
  rw [literalsValue, JsonValue.toList_compact_object, List.append_assoc, List.cons_append,
    dictionary, run_bind_of_ok (run_peek (by decide) _)]
  have henough :=
    JsonValue.length_lt_membersFrom true (d.entries.map fun e => (e.1, .text e.2)) rest
  rw [List.length_map] at henough
  have hentries : Dictionary.insertAll .empty d.entries = d := Dictionary.ofList_entries d
  refine (run_textMembers d.entries henough).trans ?_
  rw [hentries]
  rfl

/-! ## Fields -/

/-- At the end of an object, the fields are those that were given. -/
theorem run_members_end {given : JsonField.Given fs} :
    (members fs (steps + 1) first given).run ('\x7d' :: rest) = .ok (given, rest) := by
  rw [members]
  exact run_bind_of_ok (run_nextName_end first rest)

/-- **A member that is a field is read.** -/
theorem run_members_cons {given given' : JsonField.Given fs}
    (h : (member name fs given).run (':' :: v.compact.toList ++ (membersFrom false ms ++ rest)) =
      .ok (some given', membersFrom false ms ++ rest)) :
    (members fs (steps + 1) first given).run (membersFrom first ((name, v) :: ms) ++ rest) =
      (members fs steps false given').run (membersFrom false ms ++ rest) := by
  rw [members, membersFrom]
  simp only [List.append_assoc]
  rw [run_bind_of_ok (run_nextName first name _)]
  exact run_bind_of_ok h

theorem run_member_of_notMem {given : JsonField.Given fs} (h : name ∉ fs.map (·.name)) :
    (member name fs given).run cs = .ok (none, cs) := by
  induction fs with
  | nil => rfl
  | cons f fs ih =>
    obtain ⟨old, rest⟩ := given
    rw [List.map_cons, List.mem_cons, not_or] at h
    rw [member, if_neg (Ne.symm h.1), run_bind_of_ok (ih h.2)]
    rfl

/-- **A text that is no field is passed over.** -/
theorem run_members_cons_of_notMem {given : JsonField.Given fs} (h : name ∉ fs.map (·.name))
    (s : String) :
    (members fs (steps + 1) first given).run (membersFrom first ((name, .text s) :: ms) ++ rest) =
      (members fs steps false given).run (membersFrom false ms ++ rest) := by
  rw [members, membersFrom]
  simp only [List.append_assoc]
  rw [run_bind_of_ok (run_nextName first name _), run_bind_of_ok (run_member_of_notMem h)]
  dsimp only
  rw [List.cons_append, run_bind_of_ok (run_expect (by decide) _), JsonValue.compact,
    run_bind_of_ok (run_skip_quote s _)]

/-- The first field is given. -/
theorem run_member_here {x : f.type.Value} {given : JsonField.Given fs}
    (h : (value f.type).run cs = .ok (x, rest)) :
    (member f.name (f :: fs) (none, given)).run (':' :: cs) =
      .ok (some (some x, given), rest) := by
  rw [member, if_pos rfl]
  show (do
    expect ':'
    let y ← value f.type
    return some ((some y, given) : JsonField.Given (f :: fs)) : JsonReader _).run (':' :: cs) = _
  rw [run_bind_of_ok (run_expect (by decide) _), run_bind_of_ok h]
  rfl

/-- A later field is given. -/
theorem run_member_there {old : Option f.type.Value} {given given' : JsonField.Given fs}
    (ne : f.name ≠ name) (h : (member name fs given).run cs = .ok (some given', rest)) :
    (member name (f :: fs) (old, given)).run cs = .ok (some (old, given'), rest) := by
  rw [member, if_neg ne, run_bind_of_ok h]
  rfl

/-- The record in the text of an object whose members are read. -/
theorem front_record {given : JsonField.Given fs} {r : JsonField.Record fs}
    (read : ∀ steps, ms.length < steps →
      (members fs steps true (JsonField.nothing fs)).run (membersFrom true ms ++ ['\x7d']) =
        .ok (given, []))
    (complete : JsonField.complete fs given = some r) :
    front (record fs) (JsonValue.object ms).compact = .ok r := by
  have hmembers := read _ (JsonValue.length_lt_membersFrom true ms [])
  have hrecord : (record fs).run (JsonValue.object ms).compact.toList = .ok (r, []) := by
    rw [JsonValue.toList_compact_object, List.cons_append, record]
    refine run_peek_advance (by decide) rfl ?_
    rw [run_get_bind, run_bind_of_ok hmembers, complete]
    rfl
  show Prod.fst <$> (record fs).run (JsonValue.object ms).compact.toList = _
  rw [hrecord]
  rfl

end JsonReader

end Groth16
