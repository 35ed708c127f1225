import Mathlib.Data.List.Basic
import Groth16.Artifact.Decoder

/-!
# Formats

A format is a writer of values together with a reader of them.  Artifacts are written part by part,
and their laws come about in the same way: a law that holds of two formats holds of the format of
pairs, and of the format of records that are written like pairs.

* `Decoder.run_bind_eq_ok`, …: running a sequence of readers.
* `Format`: writer and reader, and where a cut leaves part of a digest.
* `Format.Lawful`: what is written for a valid value is read back; what is read as a finite value
  was written for it; the reader takes as much as was written for any value; and it fails where less
  is left.
* `Format.Safe`: the reader never breaks a precondition.
* `Format.pair`, `Lawful.pair`: one value behind another.
* `Format.Image`, `Lawful.of_image`: values that are written and read like others.
* `Format.convert`, `Lawful.convert`: values that are computed from others.

The three conditions on values differ.  A point is valid if it is one of the group, and finite if it
is not at infinity, where the `x` coordinate that was read is lost.  A list is sized if its length
fits into its count, and everything else always is.
-/

set_option autoImplicit false

namespace Groth16

/-! ## Running readers -/

namespace Decoder

variable {α β : Type} {x : Decoder α} {f : α → Decoder β} {bs mid rest : Bytes}

theorem run_bind (x : Decoder α) (f : α → Decoder β) (bs : Bytes) :
    (x >>= f).run bs = match x.run bs with
      | .ok (a, mid) => (f a).run mid
      | .error e => .error e := by
  rw [StateT.run_bind]
  rcases x.run bs with e | ⟨a, mid⟩
  · rfl
  · rfl

/-- A sequence succeeds exactly if both parts do, one after the other. -/
theorem run_bind_eq_ok {b : β} : (x >>= f).run bs = .ok (b, rest) ↔
    ∃ a mid, x.run bs = .ok (a, mid) ∧ (f a).run mid = .ok (b, rest) := by
  rw [run_bind]
  rcases x.run bs with e | ⟨a, mid⟩
  · simp
  · constructor
    · intro h
      exact ⟨a, mid, rfl, h⟩
    · rintro ⟨_, _, ⟨⟩, h⟩
      exact h

/-- A sequence fails exactly if the first part does, or else the second. -/
theorem run_bind_eq_error {e : Failure DecodeError} : (x >>= f).run bs = .error e ↔
    x.run bs = .error e ∨ ∃ a mid, x.run bs = .ok (a, mid) ∧ (f a).run mid = .error e := by
  rw [run_bind]
  rcases x.run bs with e' | ⟨a, mid⟩
  · simp
  · constructor
    · intro h
      exact .inr ⟨a, mid, rfl, h⟩
    · rintro (⟨⟨⟩⟩ | ⟨_, _, ⟨⟩, h⟩)
      exact h

theorem run_bind_of_ok {a : α} (h : x.run bs = .ok (a, mid)) :
    (x >>= f).run bs = (f a).run mid := by rw [run_bind, h]

theorem run_bind_of_error {e : Failure DecodeError} (h : x.run bs = .error e) :
    (x >>= f).run bs = .error e := by rw [run_bind, h]

@[simp] theorem run_pure (a : α) (bs : Bytes) : (pure a : Decoder α).run bs = .ok (a, bs) := rfl

@[simp] theorem run_fail (e : DecodeError) (bs : Bytes) :
    (fail e : Decoder α).run bs = .error (.reported e) := rfl

theorem run_take (n : Nat) (bs : Bytes) : (take n).run bs =
    if bs.length < n then .error (.reported .unexpectedEnd) else .ok (bs.take n, bs.drop n) := rfl

theorem run_take_append {n : Nat} {bs : Bytes} (length : bs.length = n) (rest : Bytes) :
    (take n).run (bs ++ rest) = .ok (bs, rest) := by
  rw [run_take, if_neg (by rw [List.length_append]; omega), ← length, List.take_left, List.drop_left]

@[simp] theorem run_valid_true (bs : Bytes) : (valid true).run bs = .ok ((), bs) := rfl

@[simp] theorem run_valid_false (bs : Bytes) :
    (valid false).run bs = .error (.reported .invalidData) := rfl

end Decoder

/-! ## Formats -/

/-- A writer of values together with a reader of them. -/
@[ext]
structure Format (α : Type) where
  /-- The bytes of a value. -/
  write : α → Bytes
  /-- Reads a value. -/
  read : Decoder α
  /-- The first `n` of the bytes of the value end inside of a digest. -/
  splitsDigest : α → Nat → Prop

namespace Format

variable {α β : Type}

/-- There is no digest in the values. -/
def Whole (F : Format α) : Prop := ∀ a n, ¬ F.splitsDigest a n

/-- The reader never breaks a precondition. -/
def Safe (F : Format α) : Prop := ∀ bs, F.read.run bs ≠ .error .breach

/-- Writer and reader belong together. -/
structure Lawful (F : Format α) (valid finite sized : α → Prop) : Prop where
  /-- What is written for a valid value is read back. -/
  read_write : ∀ {a}, valid a → ∀ rest, F.read.run (F.write a ++ rest) = .ok (a, rest)
  /-- What is read as a finite value was written for it. -/
  eq_write : ∀ {bs a rest}, F.read.run bs = .ok (a, rest) → finite a → bs = F.write a ++ rest
  /-- From what is written for any value, the reader takes all of it, unless it reports an error. -/
  takes : ∀ {a}, sized a → ∀ rest, (∃ a', F.read.run (F.write a ++ rest) = .ok (a', rest)) ∨
    ∃ e, F.read.run (F.write a ++ rest) = .error (.reported e)
  /-- Where part of what is written is missing, the reader fails; and it breaks a precondition only
  inside of a digest. -/
  fails : ∀ {a}, sized a → ∀ {s t}, s ++ t = F.write a → t ≠ [] →
    (∃ e, F.read.run s = .error (.reported e)) ∨
      F.read.run s = .error .breach ∧ F.splitsDigest a s.length
  /-- For a valid value, it breaks a precondition there, and misses bytes everywhere else. -/
  misses : ∀ {a}, valid a → ∀ {s t}, s ++ t = F.write a → t ≠ [] →
    (F.splitsDigest a s.length → F.read.run s = .error .breach) ∧
      (¬ F.splitsDigest a s.length → F.read.run s = .error (.reported .unexpectedEnd))
  /-- Digests are part of what is written. -/
  lt_length : ∀ {a}, valid a → ∀ {n}, F.splitsDigest a n → n < (F.write a).length

/-- The laws hold under stronger conditions as well. -/
theorem Lawful.imp {F : Format α} {valid finite sized valid' finite' sized' : α → Prop}
    (h : F.Lawful valid finite sized) (of_valid : ∀ a, valid' a → valid a)
    (of_finite : ∀ a, finite' a → finite a) (of_sized : ∀ a, sized' a → sized a) :
    F.Lawful valid' finite' sized' where
  read_write ha := h.read_write (of_valid _ ha)
  eq_write hread ha := h.eq_write hread (of_finite _ ha)
  takes ha := h.takes (of_sized _ ha)
  fails ha := h.fails (of_sized _ ha)
  misses ha := h.misses (of_valid _ ha)
  lt_length ha := h.lt_length (of_valid _ ha)

/-! ## Pairs -/

/-- One value behind the other. -/
def pair (F : Format α) (G : Format β) : Format (α × β) where
  write p := F.write p.1 ++ G.write p.2
  read := do
    let a ← F.read
    let b ← G.read
    return (a, b)
  splitsDigest p n := F.splitsDigest p.1 n ∨
    (F.write p.1).length ≤ n ∧ G.splitsDigest p.2 (n - (F.write p.1).length)

variable {F : Format α} {G : Format β} {valid finite sized : α → Prop}
  {valid' finite' sized' : β → Prop}

theorem run_read_pair_of_ok {bs mid : Bytes} {a : α} (h : F.read.run bs = .ok (a, mid)) :
    (F.pair G).read.run bs = match G.read.run mid with
      | .ok (b, rest) => .ok ((a, b), rest)
      | .error e => .error e := by
  show (F.read >>= fun a => G.read >>= fun b => pure (a, b)).run bs = _
  rw [Decoder.run_bind_of_ok h, Decoder.run_bind]
  rfl

theorem run_read_pair_of_error {bs : Bytes} {e : Failure DecodeError}
    (h : F.read.run bs = .error e) : (F.pair G).read.run bs = .error e :=
  Decoder.run_bind_of_error h

theorem run_read_pair_eq_ok {bs rest : Bytes} {p : α × β} :
    (F.pair G).read.run bs = .ok (p, rest) ↔
      ∃ mid, F.read.run bs = .ok (p.1, mid) ∧ G.read.run mid = .ok (p.2, rest) := by
  show (F.read >>= fun a => G.read >>= fun b => pure (a, b)).run bs = _ ↔ _
  simp only [Decoder.run_bind_eq_ok, Decoder.run_pure, Except.ok.injEq, Prod.mk.injEq]
  constructor
  · rintro ⟨a, mid, ha, b, _, hb, rfl, rfl⟩
    exact ⟨mid, ha, hb⟩
  · rintro ⟨mid, ha, hb⟩
    exact ⟨p.1, mid, ha, p.2, rest, hb, rfl, rfl⟩

/-- A pair breaks a precondition exactly where its first half does, or else the second. -/
theorem run_read_pair_eq_breach {bs : Bytes} : (F.pair G).read.run bs = .error .breach ↔
    F.read.run bs = .error .breach ∨
      ∃ a mid, F.read.run bs = .ok (a, mid) ∧ G.read.run mid = .error .breach := by
  show (F.read >>= fun a => G.read >>= fun b => pure (a, b)).run bs = _ ↔ _
  simp only [Decoder.run_bind_eq_error, Decoder.run_pure, reduceCtorEq, and_false, exists_false,
    or_false]

/-- Without a digest in the second half, the digests are those of the first. -/
theorem splitsDigest_pair (hG : G.Whole) (p : α × β) (n : Nat) :
    (F.pair G).splitsDigest p n ↔ F.splitsDigest p.1 n :=
  or_iff_left fun h => hG _ _ h.2

theorem Whole.pair (hF : F.Whole) (hG : G.Whole) : (F.pair G).Whole := fun p n h =>
  hF _ _ ((splitsDigest_pair hG p n).1 h)

/-- With a safe second half, a pair breaks a precondition exactly where its first half does. -/
theorem run_read_pair_eq_breach_iff (hG : G.Safe) {bs : Bytes} :
    (F.pair G).read.run bs = .error .breach ↔ F.read.run bs = .error .breach :=
  run_read_pair_eq_breach.trans (or_iff_left fun ⟨_, mid, _, h⟩ => hG mid h)

theorem Safe.pair (hF : F.Safe) (hG : G.Safe) : (F.pair G).Safe := by
  intro bs h
  exact hF bs ((run_read_pair_eq_breach_iff hG).1 h)

/-- A part of two strings that lacks some of the second lacks some of the first, or begins with it. -/
theorem cut_append {s t u v : Bytes} (eq : s ++ t = u ++ v) (ne : t ≠ []) :
    (∃ t', s ++ t' = u ∧ t' ≠ [] ∧ s.length < u.length) ∨
      ∃ s', s = u ++ s' ∧ s' ++ t = v ∧ s.length - u.length = s'.length := by
  rcases List.append_eq_append_iff.1 eq with ⟨w, rfl, rfl⟩ | ⟨w, rfl, rfl⟩
  · rcases eq_or_ne w [] with rfl | hw
    · exact .inr ⟨[], by simp, by simp, by simp⟩
    · refine .inl ⟨w, rfl, hw, ?_⟩
      rw [List.length_append]
      have := List.length_pos_iff.2 hw
      omega
  · exact .inr ⟨w, rfl, rfl, by rw [List.length_append, Nat.add_sub_cancel_left]⟩

/-- **Pairs of lawful formats are lawful.** -/
theorem Lawful.pair (hF : F.Lawful valid finite sized) (hG : G.Lawful valid' finite' sized') :
    (F.pair G).Lawful (fun p => valid p.1 ∧ valid' p.2) (fun p => finite p.1 ∧ finite' p.2)
      fun p => sized p.1 ∧ sized' p.2 where
  read_write {p} hp rest := by
    show (F.pair G).read.run (F.write p.1 ++ G.write p.2 ++ rest) = _
    rw [List.append_assoc, run_read_pair_of_ok (hF.read_write hp.1 _), hG.read_write hp.2]
  eq_write {bs p rest} h hp := by
    obtain ⟨mid, ha, hb⟩ := run_read_pair_eq_ok.1 h
    show bs = F.write p.1 ++ G.write p.2 ++ rest
    rw [hF.eq_write ha hp.1, hG.eq_write hb hp.2, List.append_assoc]
  takes {p} hp rest := by
    show (∃ p', (F.pair G).read.run (F.write p.1 ++ G.write p.2 ++ rest) = _) ∨
      ∃ e, (F.pair G).read.run (F.write p.1 ++ G.write p.2 ++ rest) = _
    rw [List.append_assoc]
    rcases hF.takes hp.1 (G.write p.2 ++ rest) with ⟨a, ha⟩ | ⟨e, he⟩
    · rw [run_read_pair_of_ok ha]
      rcases hG.takes hp.2 rest with ⟨b, hb⟩ | ⟨e, he⟩
      · exact .inl ⟨(a, b), by rw [hb]⟩
      · exact .inr ⟨e, by rw [he]⟩
    · exact .inr ⟨e, run_read_pair_of_error he⟩
  fails {p} hp s t eq ne := by
    rcases cut_append eq ne with ⟨t', ht, ht', hlt⟩ | ⟨s', rfl, hs, hlen⟩
    · rcases hF.fails hp.1 ht ht' with ⟨e, he⟩ | ⟨he, hsplit⟩
      · exact .inl ⟨e, run_read_pair_of_error he⟩
      · exact .inr ⟨run_read_pair_of_error he, .inl hsplit⟩
    · rcases hF.takes hp.1 s' with ⟨a, ha⟩ | ⟨e, he⟩
      · rw [run_read_pair_of_ok ha]
        rcases hG.fails hp.2 hs ne with ⟨e, he⟩ | ⟨he, hsplit⟩
        · exact .inl ⟨e, by rw [he]⟩
        · refine .inr ⟨by rw [he], .inr ⟨?_, ?_⟩⟩
          · rw [List.length_append]
            exact Nat.le_add_right _ _
          · rwa [hlen]
      · exact .inl ⟨e, run_read_pair_of_error he⟩
  misses {p} hp s t eq ne := by
    rcases cut_append eq ne with ⟨t', ht, ht', hlt⟩ | ⟨s', rfl, hs, hlen⟩
    · have hsplit : (F.pair G).splitsDigest p s.length ↔ F.splitsDigest p.1 s.length := by
        exact or_iff_left fun h => absurd hlt (Nat.not_lt.2 h.1)
      rw [hsplit]
      obtain ⟨breaks, ends⟩ := hF.misses hp.1 ht ht'
      exact ⟨fun h => run_read_pair_of_error (breaks h), fun h => run_read_pair_of_error (ends h)⟩
    · have hle : (F.write p.1).length ≤ (F.write p.1 ++ s').length := by
        rw [List.length_append]
        exact Nat.le_add_right _ _
      have hsplit : (F.pair G).splitsDigest p (F.write p.1 ++ s').length ↔
          G.splitsDigest p.2 s'.length := by
        show _ ∨ _ ↔ _
        rw [hlen, and_iff_right hle,
          or_iff_right fun h => absurd (hF.lt_length hp.1 h) (Nat.not_lt.2 hle)]
      rw [hsplit, run_read_pair_of_ok (hF.read_write hp.1 s')]
      obtain ⟨breaks, ends⟩ := hG.misses hp.2 hs ne
      exact ⟨fun h => by rw [breaks h], fun h => by rw [ends h]⟩
  lt_length {p} hp n h := by
    show n < (F.write p.1 ++ G.write p.2).length
    rw [List.length_append]
    rcases h with h | ⟨-, h⟩
    · have hlt := hF.lt_length hp.1 h
      omega
    · have hlt := hG.lt_length hp.2 h
      omega

/-! ## Other values for the same bytes -/

/-- The second format writes as `f a` what the first writes as `a`, and reads it so. -/
structure Image (f : α → β) (F : Format α) (G : Format β) : Prop where
  /-- The images are written alike. -/
  write_eq : ∀ a, G.write (f a) = F.write a
  /-- They are read alike. -/
  read_eq : G.read = f <$> F.read
  /-- The digests are in the same places. -/
  splitsDigest_iff : ∀ a n, G.splitsDigest (f a) n ↔ F.splitsDigest a n

section
variable {f : α → β} {F : Format α} {G : Format β} (image : Image f F G)

include image

theorem Image.run_read (bs : Bytes) : G.read.run bs = match F.read.run bs with
    | .ok (a, rest) => .ok (f a, rest)
    | .error e => .error e := by
  rw [image.read_eq, map_eq_pure_bind, Decoder.run_bind]
  rfl

theorem Image.run_read_of_ok {bs rest : Bytes} {a : α} (h : F.read.run bs = .ok (a, rest)) :
    G.read.run bs = .ok (f a, rest) := by
  rw [image.run_read, h]

theorem Image.run_read_eq_error {bs : Bytes} {e : Failure DecodeError} :
    G.read.run bs = .error e ↔ F.read.run bs = .error e := by
  rw [image.run_read]
  rcases F.read.run bs with e' | ⟨a, rest⟩
  · simp
  · exact ⟨nofun, nofun⟩

theorem Safe.of_image (h : F.Safe) : G.Safe := fun bs hbs => h bs (image.run_read_eq_error.1 hbs)

/-- **The image of a lawful format is lawful.** -/
theorem Lawful.of_image (h : F.Lawful valid finite sized)
    (of_valid : ∀ b, valid' b → ∃ a, f a = b ∧ valid a)
    (of_finite : ∀ a, finite' (f a) → finite a)
    (of_sized : ∀ b, sized' b → ∃ a, f a = b ∧ sized a) : G.Lawful valid' finite' sized' where
  read_write hb rest := by
    obtain ⟨a, rfl, ha⟩ := of_valid _ hb
    rw [image.write_eq]
    exact image.run_read_of_ok (h.read_write ha rest)
  eq_write {bs b rest} hread hb := by
    rw [image.run_read] at hread
    split at hread
    · next a rest' ha =>
      cases hread
      rw [image.write_eq]
      exact h.eq_write ha (of_finite a hb)
    · cases hread
  takes hb rest := by
    obtain ⟨a, rfl, ha⟩ := of_sized _ hb
    rw [image.write_eq]
    rcases h.takes ha rest with ⟨a', ha'⟩ | ⟨e, he⟩
    · exact .inl ⟨f a', image.run_read_of_ok ha'⟩
    · exact .inr ⟨e, image.run_read_eq_error.2 he⟩
  fails hb s t eq ne := by
    obtain ⟨a, rfl, ha⟩ := of_sized _ hb
    rw [image.write_eq] at eq
    simp only [image.run_read_eq_error, image.splitsDigest_iff]
    exact h.fails ha eq ne
  misses hb s t eq ne := by
    obtain ⟨a, rfl, ha⟩ := of_valid _ hb
    rw [image.write_eq] at eq
    simp only [image.run_read_eq_error, image.splitsDigest_iff]
    exact h.misses ha eq ne
  lt_length hb n hsplit := by
    obtain ⟨a, rfl, ha⟩ := of_valid _ hb
    rw [image.write_eq]
    exact h.lt_length ha ((image.splitsDigest_iff a n).1 hsplit)

end

/-! ## Values that are computed -/

/-- Values that are computed from what is read, where this succeeds. -/
def convert (F : Format α) (compute : α → Except DecodeError β) (source : β → α) : Format β where
  write b := F.write (source b)
  read := do
    let a ← F.read
    match compute a with
    | .ok b => return b
    | .error e => Decoder.fail e
  splitsDigest b := F.splitsDigest (source b)

section
variable {compute : α → Except DecodeError β} {source : β → α}

theorem run_convert_of_ok {bs rest : Bytes} {a : α} (h : F.read.run bs = .ok (a, rest)) :
    (F.convert compute source).read.run bs = match compute a with
      | .ok b => .ok (b, rest)
      | .error e => .error (.reported e) := by
  refine (Decoder.run_bind_of_ok h).trans ?_
  rcases compute a with e | b
  · rfl
  · rfl

theorem run_convert_of_error {bs : Bytes} {e : Failure DecodeError}
    (h : F.read.run bs = .error e) : (F.convert compute source).read.run bs = .error e :=
  Decoder.run_bind_of_error h

theorem run_convert_eq_ok {bs rest : Bytes} {b : β} :
    (F.convert compute source).read.run bs = .ok (b, rest) ↔
      ∃ a, F.read.run bs = .ok (a, rest) ∧ compute a = .ok b := by
  constructor
  · intro h
    obtain ⟨a, mid, ha, h⟩ := Decoder.run_bind_eq_ok.1 h
    split at h
    · next b' hb =>
      cases h
      exact ⟨a, ha, hb⟩
    · cases h
  · rintro ⟨a, ha, hb⟩
    rw [run_convert_of_ok ha, hb]

theorem Safe.convert (h : F.Safe) : (F.convert compute source).Safe := by
  intro bs hbs
  rcases Decoder.run_bind_eq_error.1 hbs with hbs | ⟨a, mid, -, hbs⟩
  · exact h bs hbs
  · split at hbs
    · cases hbs
    · cases hbs

/-- **Values computed from those of a lawful format have one**, if a valid value is computed from
its source, and a finite one from nothing else. -/
theorem Lawful.convert (h : F.Lawful valid finite sized)
    (of_valid : ∀ b, valid' b → valid (source b) ∧ compute (source b) = .ok b)
    (of_finite : ∀ a b, compute a = .ok b → finite' b → finite a ∧ source b = a)
    (of_sized : ∀ b, sized' b → sized (source b)) :
    (F.convert compute source).Lawful valid' finite' sized' where
  read_write {b} hb rest := by
    show (F.convert compute source).read.run (F.write (source b) ++ rest) = _
    rw [run_convert_of_ok (h.read_write (of_valid b hb).1 rest), (of_valid b hb).2]
  eq_write {bs b rest} hread hb := by
    obtain ⟨a, ha, hab⟩ := run_convert_eq_ok.1 hread
    obtain ⟨hfinite, rfl⟩ := of_finite a b hab hb
    exact h.eq_write ha hfinite
  takes {b} hb rest := by
    rcases h.takes (of_sized b hb) rest with ⟨a, ha⟩ | ⟨e, he⟩
    · have hrun : (F.convert compute source).read.run (F.write (source b) ++ rest) = _ :=
        run_convert_of_ok ha
      rcases hcompute : compute a with e | b'
      · exact .inr ⟨e, hrun.trans (by rw [hcompute])⟩
      · exact .inl ⟨b', hrun.trans (by rw [hcompute])⟩
    · exact .inr ⟨e, run_convert_of_error he⟩
  fails {b} hb s t eq ne :=
    (h.fails (of_sized b hb) eq ne).imp (fun ⟨e, he⟩ => ⟨e, run_convert_of_error he⟩)
      fun ⟨he, hsplit⟩ => ⟨run_convert_of_error he, hsplit⟩
  misses {b} hb s t eq ne :=
    (h.misses (of_valid b hb).1 eq ne).imp (fun h hsplit => run_convert_of_error (h hsplit))
      fun h hsplit => run_convert_of_error (h hsplit)
  lt_length {b} hb := h.lt_length (of_valid b hb).1

end

end Format

end Groth16
