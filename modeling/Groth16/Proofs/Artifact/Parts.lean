import Groth16.Proofs.Artifact.Format
import Groth16.Proofs.Data.Bytes

/-!
# Formats of numbers, digests, lists and points

The parts of an artifact and the laws of their formats.

* `lawful_integer`, `lawful_number`, `lawful_digest`: numbers and digests.
* `Lawful.items`, `Lawful.list`: so many values, and values behind their number.
* `Lawful.passing`: values that have to pass a check once they are read.
* `LawfulPointEncoding`: what is asked of the encoding of points.
* `lawful_point`, `lawful_points`: points of the group and lists of them.
-/

set_option autoImplicit false

namespace Groth16

/-! ## Numbers -/

namespace Format

variable {α : Type} {F : Format α} {valid finite sized : α → Prop}

/-- Numbers of so many bytes, lowest first. -/
def integer (width : Nat) : Format Nat where
  write := Bytes.littleEndian width
  read := Bytes.ofLittleEndian <$> Decoder.take width
  splitsDigest _ _ := False

theorem run_integer (width : Nat) (bs : Bytes) : (integer width).read.run bs =
    if bs.length < width then .error (.reported .unexpectedEnd)
    else .ok (Bytes.ofLittleEndian (bs.take width), bs.drop width) := by
  show (Bytes.ofLittleEndian <$> Decoder.take width).run bs = _
  rw [map_eq_pure_bind, Decoder.run_bind, Decoder.run_take]
  split_ifs with h
  · rfl
  · rfl

theorem safe_integer (width : Nat) : (integer width).Safe := by
  intro bs
  rw [run_integer]
  split_ifs with h
  · nofun
  · nofun

/-- What is read fits into the bytes. -/
theorem lt_of_run_integer {width n : Nat} {bs rest : Bytes}
    (h : (integer width).read.run bs = .ok (n, rest)) : n < 256 ^ width := by
  rw [run_integer] at h
  split_ifs at h with hlength
  cases h
  have hlt := Bytes.ofLittleEndian_lt (bs.take width)
  rwa [List.length_take, min_eq_left (Nat.not_lt.1 hlength)] at hlt

theorem run_integer_append {width n : Nat} (small : n < 256 ^ width) (rest : Bytes) :
    (integer width).read.run ((integer width).write n ++ rest) = .ok (n, rest) := by
  have hread : (Decoder.take width).run (Bytes.littleEndian width n ++ rest) =
      .ok (Bytes.littleEndian width n, rest) :=
    Decoder.run_take_append (Bytes.length_littleEndian width n) rest
  show (Bytes.ofLittleEndian <$> Decoder.take width).run _ = _
  rw [map_eq_pure_bind]
  refine (Decoder.run_bind_of_ok hread).trans ?_
  rw [Decoder.run_pure, Bytes.ofLittleEndian_littleEndian, Nat.mod_eq_of_lt small]

theorem run_integer_cut {width n : Nat} {s t : Bytes} (eq : s ++ t = (integer width).write n)
    (ne : t ≠ []) : (integer width).read.run s = .error (.reported .unexpectedEnd) := by
  have length : s.length + t.length = width := by
    rw [← List.length_append, eq]
    exact Bytes.length_littleEndian width n
  have hpos := List.length_pos_iff.2 ne
  rw [run_integer, if_pos (by omega)]

/-- **Numbers have a lawful format.** -/
theorem lawful_integer (width : Nat) :
    (integer width).Lawful (· < 256 ^ width) (fun _ => True) (· < 256 ^ width) where
  read_write small rest := run_integer_append small rest
  eq_write {bs n rest} h _ := by
    rw [run_integer] at h
    split_ifs at h with hlength
    cases h
    have hback := Bytes.littleEndian_ofLittleEndian (bs.take width)
    rw [List.length_take, min_eq_left (Nat.not_lt.1 hlength)] at hback
    show bs = Bytes.littleEndian width _ ++ bs.drop width
    rw [hback, List.take_append_drop]
  takes small rest := .inl ⟨_, run_integer_append small rest⟩
  fails _ _ _ eq ne := .inl ⟨_, run_integer_cut eq ne⟩
  misses _ _ _ eq ne := ⟨fun h => h.elim, fun _ => run_integer_cut eq ne⟩
  lt_length _ _ h := h.elim

/-- Numbers of a machine word. -/
def number : Format UInt64 where
  write n := Bytes.littleEndian 8 n.toNat
  read := UInt64.ofNat <$> Decoder.word
  splitsDigest _ _ := False

theorem run_number (bs : Bytes) : number.read.run bs = match (integer 8).read.run bs with
    | .ok (n, rest) => .ok (UInt64.ofNat n, rest)
    | .error e => .error e := by
  show (UInt64.ofNat <$> (integer 8).read).run bs = _
  rw [map_eq_pure_bind, Decoder.run_bind]
  rcases (integer 8).read.run bs with e | ⟨n, rest⟩
  · rfl
  · rfl

theorem run_number_append (n : UInt64) (rest : Bytes) :
    number.read.run (number.write n ++ rest) = .ok (n, rest) := by
  have hread : (integer 8).read.run (number.write n ++ rest) = .ok (n.toNat, rest) :=
    run_integer_append n.toNat_lt rest
  rw [run_number, hread]
  show Except.ok (UInt64.ofNat n.toNat, rest) = _
  rw [UInt64.ofNat_toNat]

theorem run_number_cut {n : UInt64} {s t : Bytes} (eq : s ++ t = number.write n) (ne : t ≠ []) :
    number.read.run s = .error (.reported .unexpectedEnd) := by
  rw [run_number, run_integer_cut eq ne]

theorem safe_number : number.Safe := by
  intro bs h
  rw [run_number] at h
  split at h
  · cases h
  · next e he =>
    cases h
    exact safe_integer 8 bs he

/-- **Numbers of a machine word have a lawful format.** -/
theorem lawful_number : number.Lawful (fun _ => True) (fun _ => True) fun _ => True where
  read_write _ rest := run_number_append _ rest
  eq_write {bs n rest} h _ := by
    rw [run_number] at h
    split at h
    · next k rest' hk =>
      cases h
      show bs = (integer 8).write (UInt64.ofNat k).toNat ++ rest
      rw [UInt64.toNat_ofNat_of_lt' (lt_of_run_integer hk)]
      exact (lawful_integer 8).eq_write hk trivial
    · cases h
  takes _ rest := .inl ⟨_, run_number_append _ rest⟩
  fails _ _ _ eq ne := .inl ⟨_, run_number_cut eq ne⟩
  misses _ _ _ eq ne := ⟨fun h => h.elim, fun _ => run_number_cut eq ne⟩
  lt_length _ _ h := h.elim

/-! ## Digests -/

theorem run_digest (bs : Bytes) : Decoder.digest.run bs = match Digest.ofBytes? (bs.take 32) with
    | some d => .ok (d, bs.drop 32)
    | none => .error .breach := rfl

/-- Reading a digest breaks a precondition exactly if fewer than its 32 bytes are left. -/
theorem run_digest_eq_breach {bs : Bytes} :
    Decoder.digest.run bs = .error .breach ↔ bs.length < 32 := by
  rw [run_digest, Digest.ofBytes?]
  split_ifs with h
  · rw [List.length_take] at h
    exact ⟨nofun, fun hlt => by omega⟩
  · rw [List.length_take] at h
    exact ⟨fun _ => by omega, fun _ => rfl⟩

theorem run_digest_append (d : Digest) (rest : Bytes) :
    Decoder.digest.run (d.bytes ++ rest) = .ok (d, rest) := by
  have htake : (d.bytes ++ rest).take 32 = d.bytes := by
    rw [← d.length_eq, List.take_left]
  have hdrop : (d.bytes ++ rest).drop 32 = rest := by
    rw [← d.length_eq, List.drop_left]
  rw [run_digest, htake, hdrop, Digest.ofBytes?, dif_pos d.length_eq]

/-- Digests. -/
def digest : Format Digest where
  write := Digest.bytes
  read := Decoder.digest
  splitsDigest _ n := n < 32

theorem length_digest_cut {d : Digest} {s t : Bytes} (eq : s ++ t = d.bytes) (ne : t ≠ []) :
    s.length < 32 := by
  have length := congrArg List.length eq
  rw [List.length_append, d.length_eq] at length
  have hpos := List.length_pos_iff.2 ne
  omega

/-- **Digests have a lawful format.** -/
theorem lawful_digest : digest.Lawful (fun _ => True) (fun _ => True) fun _ => True where
  read_write _ rest := run_digest_append _ rest
  eq_write {bs d rest} h _ := by
    rw [show digest.read.run bs = _ from run_digest bs, Digest.ofBytes?] at h
    split_ifs at h with hlength
    cases h
    exact (List.take_append_drop 32 bs).symm
  takes _ rest := .inl ⟨_, run_digest_append _ rest⟩
  fails _ _ _ eq ne :=
    .inr ⟨run_digest_eq_breach.2 (length_digest_cut eq ne), length_digest_cut eq ne⟩
  misses _ _ _ eq ne :=
    ⟨run_digest_eq_breach.2, fun h => (h (length_digest_cut eq ne)).elim⟩
  lt_length {d} _ n h := by
    show n < d.bytes.length
    rwa [d.length_eq]

/-! ## Lists -/

/-- So many values, one behind the other. -/
def items (F : Format α) (n : Nat) : Format (List α) where
  write as := as.flatMap F.write
  read := Decoder.items F.read n
  splitsDigest _ _ := False

/-- One value more is a value and the others behind it. -/
theorem items_succ (whole : F.Whole) (n : Nat) :
    Image (fun p : α × List α => p.1 :: p.2) (F.pair (F.items n)) (F.items (n + 1)) where
  write_eq p := List.flatMap_cons
  read_eq := by simp only [items, pair, Decoder.items, map_bind, map_pure]
  splitsDigest_iff p n := by
    rw [splitsDigest_pair fun _ _ h => h]
    exact iff_of_false (fun h => h) (whole _ _)

theorem Safe.items (h : F.Safe) (whole : F.Whole) (n : Nat) :
    (F.items n).Safe := by
  induction n with
  | zero => exact fun bs => nofun
  | succ n ih => exact (h.pair ih).of_image (items_succ whole n)

/-- **So many values of a lawful format have a lawful format.** -/
theorem Lawful.items (h : F.Lawful valid finite sized) (whole : F.Whole)
    (n : Nat) : (F.items n).Lawful (fun as => as.length = n ∧ ∀ a ∈ as, valid a)
      (fun as => ∀ a ∈ as, finite a) fun as => as.length = n ∧ ∀ a ∈ as, sized a := by
  induction n with
  | zero =>
    -- Nothing is written, so nothing can be cut off.
    have hempty : ∀ {as : List α} {s t : Bytes}, as.length = 0 → s ++ t = (F.items 0).write as →
        t = [] := by
      rintro as s t length eq
      obtain rfl := List.length_eq_zero_iff.1 length
      exact (List.append_eq_nil_iff.1 eq).2
    exact {
      read_write := fun {as} has rest => by
        obtain rfl := List.length_eq_zero_iff.1 has.1
        rfl
      eq_write := fun {bs as rest} hread _ => by
        cases hread
        rfl
      takes := fun {as} has rest => by
        obtain rfl := List.length_eq_zero_iff.1 has.1
        exact .inl ⟨[], rfl⟩
      fails := fun has _ _ eq ne => absurd (hempty has.1 eq) ne
      misses := fun has _ _ eq ne => absurd (hempty has.1 eq) ne
      lt_length := fun _ _ h => h.elim }
  | succ n ih =>
    -- A list of `n + 1` values with a property has a head and `n` others with it.
    have hcons : ∀ {P : α → Prop} (as : List α), (as.length = n + 1 ∧ ∀ a ∈ as, P a) →
        ∃ p : α × List α, p.1 :: p.2 = as ∧ P p.1 ∧ p.2.length = n ∧ ∀ a ∈ p.2, P a := by
      rintro P as ⟨length, has⟩
      cases as with
      | nil => cases length
      | cons a as =>
        rw [List.forall_mem_cons] at has
        exact ⟨(a, as), rfl, has.1, Nat.succ.inj length, has.2⟩
    exact (h.pair ih).of_image (items_succ whole n) hcons
      (fun p hp => List.forall_mem_cons.1 hp) hcons

/-- As many values are read as said. -/
theorem length_of_run_items {item : Decoder α} {n : Nat} {bs rest : Bytes} {as : List α}
    (h : (Decoder.items item n).run bs = .ok (as, rest)) : as.length = n := by
  induction n generalizing bs rest as with
  | zero =>
    cases h
    rfl
  | succ n ih =>
    rw [Decoder.items] at h
    obtain ⟨a, mid, -, h⟩ := Decoder.run_bind_eq_ok.1 h
    obtain ⟨as', mid', has, h⟩ := Decoder.run_bind_eq_ok.1 h
    cases h
    rw [List.length_cons, ih has]

/-- Values behind their number. -/
def list (F : Format α) : Format (List α) where
  write as := Bytes.littleEndian 8 as.length ++ (F.items as.length).write as
  read := do
    let n ← Decoder.word
    (F.items n).read
  splitsDigest _ _ := False

/-- Behind a number, so many values are read. -/
theorem run_list_append {n : Nat} (small : n < 256 ^ 8) (rest : Bytes) :
    F.list.read.run (Bytes.littleEndian 8 n ++ rest) = (F.items n).read.run rest :=
  Decoder.run_bind_of_ok (run_integer_append small rest)

theorem Safe.list (h : F.Safe) (whole : F.Whole) : F.list.Safe := by
  intro bs hbs
  rcases Decoder.run_bind_eq_error.1 hbs with hword | ⟨n, mid, -, hitems⟩
  · exact safe_integer 8 bs hword
  · exact h.items whole n mid hitems

/-- **Lists of values of a lawful format have a lawful format.** -/
theorem Lawful.list (h : F.Lawful valid finite sized) (whole : F.Whole) :
    F.list.Lawful (fun as => as.length < 256 ^ 8 ∧ ∀ a ∈ as, valid a)
      (fun as => ∀ a ∈ as, finite a) fun as => as.length < 256 ^ 8 ∧ ∀ a ∈ as, sized a where
  read_write {as} has rest := by
    show F.list.read.run (Bytes.littleEndian 8 as.length ++ _ ++ rest) = _
    rw [List.append_assoc, run_list_append has.1]
    exact (h.items whole _).read_write ⟨rfl, has.2⟩ rest
  eq_write {bs as rest} hread hfinite := by
    obtain ⟨n, mid, hword, hitems⟩ := Decoder.run_bind_eq_ok.1 hread
    obtain rfl := length_of_run_items hitems
    show bs = Bytes.littleEndian 8 as.length ++ _ ++ rest
    have hcount : bs = Bytes.littleEndian 8 as.length ++ mid :=
      (lawful_integer 8).eq_write hword trivial
    rw [hcount, (h.items whole _).eq_write hitems hfinite, List.append_assoc]
  takes {as} has rest := by
    show (∃ as', F.list.read.run (Bytes.littleEndian 8 as.length ++ _ ++ rest) = _) ∨
      ∃ e, F.list.read.run (Bytes.littleEndian 8 as.length ++ _ ++ rest) = _
    rw [List.append_assoc, run_list_append has.1]
    exact (h.items whole _).takes ⟨rfl, has.2⟩ rest
  fails {as} has s t eq ne := by
    rcases cut_append eq ne with ⟨t', ht, ht', -⟩ | ⟨s', rfl, hs, -⟩
    · exact .inl ⟨_, Decoder.run_bind_of_error (run_integer_cut ht ht')⟩
    · rw [run_list_append has.1]
      refine .inl (((h.items whole _).fails ⟨rfl, has.2⟩ hs ne).resolve_right ?_)
      exact fun hsplit => hsplit.2
  misses {as} has s t eq ne := by
    refine ⟨fun h => h.elim, fun _ => ?_⟩
    rcases cut_append eq ne with ⟨t', ht, ht', -⟩ | ⟨s', rfl, hs, -⟩
    · exact Decoder.run_bind_of_error (run_integer_cut ht ht')
    · rw [run_list_append has.1]
      exact ((h.items whole _).misses ⟨rfl, has.2⟩ hs ne).2 fun hsplit => hsplit
  lt_length _ _ h := h.elim

/-! ## Points -/

section
variable {G : Type} [PointEncoding G]

/-- Points, before it is checked that they are in the group. -/
def curvePoint : Format G where
  write := PointEncoding.encode
  read := PointEncoding.decode
  splitsDigest _ _ := False

/-- Lets a value pass that has a property. -/
def passing {α : Type} (ok : α → Bool) (a : α) : Except DecodeError α :=
  if ok a then .ok a else .error .invalidData

/-- Points of the group. -/
def point : Format G := curvePoint.convert (passing PointEncoding.inGroup) id

/-- Lists of points of the group. -/
def points : Format (List G) := curvePoint.list.convert (passing (List.all · PointEncoding.inGroup)) id

theorem read_passing {α : Type} {F : Format α} {ok : α → Bool} :
    (F.convert (passing ok) id).read = do
      let a ← F.read
      Decoder.valid (ok a)
      return a := by
  simp only [convert]
  congr
  funext a
  rw [passing]
  cases ok a
  · rfl
  · rfl

theorem Lawful.passing {α : Type} {F : Format α} {valid finite sized : α → Prop} {ok : α → Bool}
    (h : F.Lawful valid (fun a => ok a ∧ finite a) sized) :
    (F.convert (passing ok) id).Lawful (fun a => valid a ∧ ok a) finite sized := by
  refine h.convert (fun a ha => ⟨ha.1, if_pos ha.2⟩) ?_ fun _ ha => ha
  intro a b hab hb
  rw [Format.passing] at hab
  split_ifs at hab with hok
  cases hab
  exact ⟨⟨hok, hb⟩, rfl⟩

end

end Format

/-- Points of the curve are read back, and finite points of the group are written in one way. -/
class LawfulPointEncoding (G : Type) [PointEncoding G] where
  /-- The point is one of the curve. -/
  OnCurve : G → Prop
  /-- The point is not at infinity. -/
  IsFinite : G → Prop
  /-- The reader never breaks a precondition. -/
  safe : (Format.curvePoint : Format G).Safe
  /-- The laws of the format. -/
  lawful : (Format.curvePoint : Format G).Lawful OnCurve
    (fun p => PointEncoding.inGroup p ∧ IsFinite p) fun _ => True

namespace Format

theorem read_point {G : Type} [PointEncoding G] :
    (point : Format G).read = PointEncoding.decodePoint :=
  read_passing

theorem read_points {G : Type} [PointEncoding G] :
    (points : Format (List G)).read = PointEncoding.decodePoints := by
  rw [points, read_passing]
  simp only [list, items, curvePoint, PointEncoding.decodePoints, bind_assoc]

variable {G : Type} [PointEncoding G] [encoding : LawfulPointEncoding G]

open LawfulPointEncoding

/-- The point is one of the curve and of the group. -/
def IsGroupPoint (p : G) : Prop := OnCurve p ∧ PointEncoding.inGroup p

theorem safe_point : (point : Format G).Safe := encoding.safe.convert

/-- **Points of the group have a lawful format.** -/
theorem lawful_point : (point : Format G).Lawful IsGroupPoint IsFinite fun _ => True :=
  encoding.lawful.passing

theorem safe_points : (points : Format (List G)).Safe :=
  (encoding.safe.list fun _ _ h => h).convert

/-- **Lists of points of the group have a lawful format.** -/
theorem lawful_points : (points : Format (List G)).Lawful
    (fun ps => ps.length < 256 ^ 8 ∧ ∀ p ∈ ps, IsGroupPoint p) (fun ps => ∀ p ∈ ps, IsFinite p)
    fun ps => ps.length < 256 ^ 8 := by
  have hlist : (curvePoint : Format G).list.Lawful
      (fun ps => ps.length < 256 ^ 8 ∧ ∀ p ∈ ps, OnCurve p)
      (fun ps => ps.all PointEncoding.inGroup ∧ ∀ p ∈ ps, IsFinite p)
      fun ps => ps.length < 256 ^ 8 :=
    (encoding.lawful.list fun _ _ h => h).imp (fun _ h => h)
      (fun _ h p hp => ⟨List.all_eq_true.1 h.1 p hp, h.2 p hp⟩) fun _ h => ⟨h, fun _ _ => trivial⟩
  refine hlist.passing.imp (fun ps h => ⟨⟨h.1, fun p hp => (h.2 p hp).1⟩, ?_⟩) (fun _ h => h)
    fun _ h => h
  exact List.all_eq_true.2 fun p hp => (h.2 p hp).2

end Format

end Groth16
