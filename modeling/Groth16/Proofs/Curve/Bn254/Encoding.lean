import Groth16.Curve.Bn254.Encoding
import Groth16.Proofs.Artifact.Parts
import Groth16.Proofs.Curve.Bn254.Fields
import Groth16.Proofs.Outcome

/-!
# The encoding of points

A point of the curve is read back from its `x` coordinate and its flag, and a finite point of the
group is written in one way only.

* `lawful_coordinate`, `lawful_flagged`: coordinates, with and without a flag.
* `chooseRoot_flagOf`, `flagOf_chooseRoot`: the flag tells the two square roots apart.
* `Point.OnCurve`, `pointOf_flaggedOf`, `flaggedOf_pointOf`: points and their flagged coordinates.
* `multiple_order_ne_infinity`: no point of the second group lies on the `x` axis.
* `LawfulPointEncoding G1`, `LawfulPointEncoding G2`: the encodings are lawful.
-/

set_option autoImplicit false

namespace Groth16

/-- The point lies on the curve `y² = x³ + b`. -/
def Point.OnCurve {F : Type} [Arithmetic F] (b : F) : Point F → Prop
  | .infinity => True
  | .affine x y => y * y = x * x * x + b

instance {F : Type} [Arithmetic F] (b : F) (p : Point F) : Decidable (p.OnCurve b) :=
  match p with
  | .infinity => .isTrue trivial
  | .affine x y => inferInstanceAs (Decidable (y * y = x * x * x + b))

namespace Bn254

open Format

/-! ## Coordinates -/

/-- The residue that a number is, if it is reduced. -/
def residue (n : Nat) : Except DecodeError Fq :=
  if h : n < base.modulus then .ok ⟨n, h⟩ else .error .invalidData

theorem residue_val (x : Fq) : residue x.val = .ok x := dif_pos x.isLt

theorem val_of_residue {n : Nat} {x : Fq} (h : residue n = .ok x) : x.val = n := by
  unfold residue at h
  split_ifs at h
  cases h
  rfl

theorem reduced_eq (n : Nat) : reduced n = match residue n with
    | .ok x => pure x
    | .error e => Decoder.fail e := by
  unfold reduced residue
  split_ifs with h
  · rfl
  · rfl

/-- Coordinates without flags. -/
def coordinate : Format Fq := (integer coordinateLength).convert residue Fp.val

theorem read_coordinate : coordinate.read = decodeCoordinate := by
  simp only [coordinate, convert, integer, decodeCoordinate, bind_map_left]
  congr
  funext bs
  rw [reduced_eq]
  rcases residue (Bytes.ofLittleEndian bs) with e | x
  · rfl
  · rfl

theorem val_lt (x : Fq) : x.val < 0x40 * topWeight := x.isLt.trans (by decide)

theorem val_lt_width (x : Fq) : x.val < 256 ^ coordinateLength := x.isLt.trans (by decide)

theorem lawful_coordinate :
    coordinate.Lawful (fun _ => True) (fun _ => True) fun _ => True :=
  (lawful_integer coordinateLength).convert (fun x _ => ⟨val_lt_width x, residue_val x⟩)
    (fun _ _ h _ => ⟨trivial, val_of_residue h⟩) fun x _ => val_lt_width x

/-- The flag that the top bits of a coordinate mean. -/
def flagOfBits : Nat → Except DecodeError Flag
  | 0 => .ok .lower
  | 1 => .ok .infinite
  | 2 => .ok .upper
  | _ => .error .unexpectedFlags

/-- The coordinate and the flag in a number. -/
def splitFlag (n : Nat) : Except DecodeError (Fq × Flag) := do
  let flag ← flagOfBits (n / (0x40 * topWeight))
  let x ← residue (n % (0x40 * topWeight))
  return (x, flag)

/-- The number of a coordinate and a flag. -/
def joinFlag (c : Fq × Flag) : Nat := c.1.val + c.2.bits * topWeight

/-- Coordinates with flags. -/
def flagged : Format (Fq × Flag) := (integer coordinateLength).convert splitFlag joinFlag

theorem read_flagged : flagged.read = decodeFlagged := by
  simp only [flagged, convert, integer, decodeFlagged, bind_map_left, reduced_eq]
  congr
  funext bs
  unfold splitFlag
  generalize Bytes.ofLittleEndian bs / (0x40 * topWeight) = flags
  rcases residue (Bytes.ofLittleEndian bs % (0x40 * topWeight)) with e | x
  · rcases flags with _ | _ | _ | flags <;> rfl
  · rcases flags with _ | _ | _ | flags <;> rfl

/-- The weight of the flag of a number. -/
theorem flagOfBits_bits (flag : Flag) : ∃ k, flag.bits = 0x40 * k ∧ flagOfBits k = .ok flag := by
  cases flag with
  | lower => exact ⟨0, rfl, rfl⟩
  | upper => exact ⟨2, rfl, rfl⟩
  | infinite => exact ⟨1, rfl, rfl⟩

theorem bits_of_flagOfBits {k : Nat} {flag : Flag} (h : flagOfBits k = .ok flag) :
    flag.bits = 0x40 * k := by
  unfold flagOfBits at h
  split at h
  · cases h; rfl
  · cases h; rfl
  · cases h; rfl
  · cases h

theorem splitFlag_joinFlag (c : Fq × Flag) : splitFlag (joinFlag c) = .ok c := by
  obtain ⟨k, hbits, hk⟩ := flagOfBits_bits c.2
  have hjoin : joinFlag c = c.1.val + (0x40 * topWeight) * k := by
    rw [joinFlag, hbits]
    ring
  have hpos : 0 < 0x40 * topWeight := by decide
  rw [splitFlag, hjoin, Nat.add_mul_div_left _ _ hpos, Nat.div_eq_of_lt (val_lt _), Nat.zero_add,
    hk, Nat.add_mul_mod_self_left, Nat.mod_eq_of_lt (val_lt _)]
  show (residue c.1.val >>= fun x => pure (x, c.2)) = _
  rw [residue_val]
  rfl

theorem joinFlag_splitFlag {n : Nat} {c : Fq × Flag} (h : splitFlag n = .ok c) :
    joinFlag c = n := by
  obtain ⟨flag, hflag, h⟩ := Outcome.bind_eq_ok.1 h
  obtain ⟨x, hx, h⟩ := Outcome.bind_eq_ok.1 h
  cases h
  rw [joinFlag, val_of_residue hx, bits_of_flagOfBits hflag]
  have hdiv := Nat.mod_add_div n (0x40 * topWeight)
  calc n % (0x40 * topWeight) + 0x40 * (n / (0x40 * topWeight)) * topWeight
      = n % (0x40 * topWeight) + 0x40 * topWeight * (n / (0x40 * topWeight)) := by ring
    _ = n := hdiv

theorem joinFlag_lt (c : Fq × Flag) : joinFlag c < 256 ^ coordinateLength := by
  have hx := val_lt c.1
  have hbits : c.2.bits ≤ 0x80 := by
    cases c.2 with
    | lower => decide
    | upper => decide
    | infinite => decide
  calc joinFlag c < 0x40 * topWeight + 0x80 * topWeight :=
        Nat.add_lt_add_of_lt_of_le hx (Nat.mul_le_mul_right _ hbits)
    _ ≤ 256 ^ coordinateLength := by decide

theorem lawful_flagged : flagged.Lawful (fun _ => True) (fun _ => True) fun _ => True :=
  (lawful_integer coordinateLength).convert (fun c _ => ⟨joinFlag_lt c, splitFlag_joinFlag c⟩)
    (fun _ _ h _ => ⟨trivial, joinFlag_splitFlag h⟩) fun c _ => joinFlag_lt c

/-! ## Square roots and flags -/

section
variable {F : Type} [Arithmetic F]

/-- What the encoding relies on: square roots are found and are two, and of a number and its negative
one is larger. -/
structure SquareRoots (sqrt? : F → Option F) (larger : F → F → Bool) : Prop where
  /-- The negative of the negative of a number is the number. -/
  neg_neg : ∀ a : F, - -a = a
  /-- Every square has a square root. -/
  exists_sqrt? : ∀ y, ∃ r, sqrt? (y * y) = some r
  /-- A square root is one. -/
  mul_self_of_sqrt? : ∀ {a r}, sqrt? a = some r → r * r = a
  /-- There are no more than two square roots. -/
  eq_or_eq_neg : ∀ {r y : F}, r * r = y * y → r = y ∨ r = -y
  /-- Of two numbers one is larger. -/
  larger_comm : ∀ {a b}, a ≠ b → larger a b = !larger b a

variable {sqrt? : F → Option F} {larger : F → F → Bool} {b : F}

/-- The flag of `y` chooses `y` among the roots of its square. -/
theorem chooseRoot_flagOf (roots : SquareRoots sqrt? larger) {r y : F} (h : r = y ∨ r = -y) :
    chooseRoot larger (flagOf larger y) r = y := by
  have hflag : (flagOf larger y == .upper) = larger y (-y) := by
    rw [flagOf]
    cases larger y (-y)
    · rfl
    · rfl
  rw [chooseRoot, hflag]
  rcases h with rfl | rfl
  · rw [beq_self_eq_true, if_pos rfl]
  · rw [roots.neg_neg]
    by_cases hy : y = -y
    · rw [← hy, ite_self]
    · rw [roots.larger_comm (Ne.symm hy)]
      cases larger y (-y)
      · rfl
      · rfl

/-- The chosen root has the flag that chose it, unless both roots are the same. -/
theorem flagOf_chooseRoot (roots : SquareRoots sqrt? larger) {flag : Flag} (hflag : flag ≠ .infinite)
    {r : F} (hr : r ≠ -r) : flagOf larger (chooseRoot larger flag r) = flag := by
  have hlarger := roots.larger_comm hr
  unfold chooseRoot flagOf
  cases h : larger r (-r)
  all_goals
    rw [h] at hlarger
    cases flag with
    | lower => simp_all [roots.neg_neg]
    | upper => simp_all [roots.neg_neg]
    | infinite => exact absurd rfl hflag

/-! ## Points -/

/-- The point with a given `x` and flag. -/
def pointOf (b : F) (sqrt? : F → Option F) (larger : F → F → Bool) (c : F × Flag) :
    Except DecodeError (Point F) :=
  if c.2 = .infinite then .ok .infinity
  else match sqrt? (c.1 * c.1 * c.1 + b) with
    | some r => .ok (.affine c.1 (chooseRoot larger c.2 r))
    | none => .error .invalidData

/-- The `x` coordinate and the flag of a point. -/
def flaggedOf (larger : F → F → Bool) : Point F → F × Flag
  | .infinity => (0, .infinite)
  | .affine x y => (x, flagOf larger y)

theorem flagOf_ne_infinite (y : F) : flagOf larger y ≠ .infinite := by
  unfold flagOf
  split_ifs with h
  · nofun
  · nofun

/-- **A point of the curve is recovered** from its `x` coordinate and its flag. -/
theorem pointOf_flaggedOf (roots : SquareRoots sqrt? larger) {p : Point F} (h : p.OnCurve b) :
    pointOf b sqrt? larger (flaggedOf larger p) = .ok p := by
  cases p with
  | infinity => exact if_pos rfl
  | affine x y =>
    have hcurve : y * y = x * x * x + b := h
    obtain ⟨r, hr⟩ := roots.exists_sqrt? y
    have hroot := roots.eq_or_eq_neg (roots.mul_self_of_sqrt? hr)
    unfold pointOf flaggedOf
    dsimp only
    rw [if_neg (flagOf_ne_infinite y), ← hcurve, hr]
    dsimp only
    rw [chooseRoot_flagOf roots hroot]

/-- **A finite point that was recovered has the `x` coordinate and the flag** it was recovered from,
unless it lies on the `x` axis. -/
theorem flaggedOf_pointOf (roots : SquareRoots sqrt? larger) {c : F × Flag} {p : Point F}
    (h : pointOf b sqrt? larger c = .ok p) (finite : p ≠ .infinity)
    (axis : ∀ x r, p = .affine x r ∨ p = .affine x (-r) → r * r = x * x * x + b → r ≠ -r) :
    flaggedOf larger p = c := by
  unfold pointOf at h
  split_ifs at h with hflag
  · cases h
    exact absurd rfl finite
  · split at h
    · next r hr =>
      cases h
      have hroot := roots.mul_self_of_sqrt? hr
      have hne : r ≠ -r := by
        refine axis c.1 r ?_ hroot
        unfold chooseRoot
        split_ifs with hchoice
        · exact .inl rfl
        · exact .inr rfl
      exact Prod.ext rfl (flagOf_chooseRoot roots hflag hne)
    · cases h

/-- What is read behind a coordinate and a flag. -/
theorem recover_eq {G : Type} (mk : Point F → G) (c : F × Flag) :
    (if c.2 = .infinite then pure (mk .infinity)
      else do return mk (← recover b sqrt? larger c.1 c.2) : Decoder G) =
      match mk <$> pointOf b sqrt? larger c with
      | .ok p => pure p
      | .error e => Decoder.fail e := by
  unfold recover pointOf
  split_ifs with hflag
  · rfl
  · cases sqrt? (c.1 * c.1 * c.1 + b) with
    | none => rfl
    | some r => rfl

end

theorem eq_neg_iff_eq_zero {y : Fq} : y = -y ↔ y = 0 := by
  rw [eq_neg_iff_add_eq_zero, ← two_mul, ← one_add_one_eq_two, mul_eq_zero,
    or_iff_right two_ne_zero]

/-! ## The first group -/

theorem squareRoots_fq : SquareRoots Fq.sqrt? Fq.larger where
  neg_neg := neg_neg
  exists_sqrt? := Fq.exists_sqrt?
  mul_self_of_sqrt? := Fq.mul_self_of_sqrt?
  eq_or_eq_neg h := mul_self_eq_mul_self_iff.1 h
  larger_comm {a b} h := by
    have hval : a.val ≠ b.val := fun hval => h (Fp.ext hval)
    unfold Fq.larger
    rw [Bool.eq_not, ne_eq, decide_eq_decide]
    omega

theorem curvePoint_g1 : (curvePoint : Format G1) = flagged.convert
    (fun c => G1.mk <$> pointOf b1 Fq.sqrt? Fq.larger c) fun p => flaggedOf Fq.larger p.point := by
  refine Format.ext ?_ ?_ rfl
  · funext p
    rcases p with ⟨_ | ⟨x, y⟩⟩
    · rfl
    · rfl
  · rw [convert, read_flagged]
    exact congrArg (decodeFlagged >>= ·) (funext fun c => recover_eq G1.mk c)

/-- **The points of the first group have a lawful encoding.** -/
instance : LawfulPointEncoding G1 where
  OnCurve p := p.point.OnCurve b1
  IsFinite p := p.point ≠ .infinity
  safe := by
    rw [curvePoint_g1]
    exact (safe_integer _).convert.convert
  lawful := by
    rw [curvePoint_g1]
    refine lawful_flagged.convert (fun p hp => ⟨trivial, ?_⟩) (fun c p h hp => ⟨trivial, ?_⟩)
      fun _ _ => trivial
    · rw [pointOf_flaggedOf squareRoots_fq hp]
      rfl
    · obtain ⟨point, hpoint, rfl⟩ := Outcome.map_eq_ok.1 h
      refine flaggedOf_pointOf squareRoots_fq hpoint hp.2 ?_
      intro x r _ hroot heq
      refine Fq.cube_add_b1_ne_zero x ?_
      rw [← hroot, eq_neg_iff_eq_zero.1 heq, mul_zero]

/-! ## The second group -/

namespace Fq2

@[simp] theorem c0_add (a b : Fq2) : (a + b).c0 = a.c0 + b.c0 := rfl

@[simp] theorem c1_add (a b : Fq2) : (a + b).c1 = a.c1 + b.c1 := rfl

theorem mul_zero (a : Fq2) : a * 0 = 0 := by
  apply Fq2.ext
  · simp
  · simp

theorem zero_mul (a : Fq2) : 0 * a = 0 := by
  apply Fq2.ext
  · simp
  · simp

theorem add_zero (a : Fq2) : a + 0 = a := by
  apply Fq2.ext
  · simp
  · simp

theorem eq_neg_iff_eq_zero {y : Fq2} : y = -y ↔ y = 0 := by
  constructor
  · intro h
    apply Fq2.ext
    · exact Bn254.eq_neg_iff_eq_zero.1 (congrArg c0 h)
    · exact Bn254.eq_neg_iff_eq_zero.1 (congrArg c1 h)
  · rintro rfl
    apply Fq2.ext
    · simp
    · simp

end Fq2

theorem squareRoots_fq2 : SquareRoots Fq2.sqrt? Fq2.larger where
  neg_neg a := by
    apply Fq2.ext
    · exact neg_neg a.c0
    · exact neg_neg a.c1
  exists_sqrt? := Fq2.exists_sqrt?
  mul_self_of_sqrt? := Fq2.mul_self_of_sqrt?
  eq_or_eq_neg := Fq2.eq_or_eq_neg_of_mul_self_eq
  larger_comm {a b} h := by
    unfold Fq2.larger
    by_cases h₁ : a.c1 = b.c1
    · have h₀ : a.c0 ≠ b.c0 := fun h₀ => h (Fq2.ext h₀ h₁)
      rw [if_pos h₁, if_pos h₁.symm, squareRoots_fq.larger_comm h₀]
    · rw [if_neg h₁, if_neg (Ne.symm h₁), squareRoots_fq.larger_comm h₁]

/-- Doubling a point on the `x` axis, or the point at infinity, gives the point at infinity. -/
theorem z_double {acc : Jacobian Fq2} (h : acc.y * acc.z = 0) : acc.double.z = 0 := by
  show acc.y * acc.z + acc.y * acc.z = 0
  rw [h, Fq2.add_zero]

/-- An odd multiple of a point on the `x` axis is the point. -/
theorem sumOfBits_axis {x : Fq2} {n : Nat} (odd : n.testBit 0) (k : Nat) (acc : Jacobian Fq2)
    (h : acc.y * acc.z = 0) :
    Point.sumOfBits [(.affine x 0, n)] (k + 1) acc = ⟨x, 0, 1⟩ := by
  induction k generalizing acc with
  | zero =>
    show (if n.testBit 0 then acc.double.addAffine x 0 else acc.double) = _
    rw [if_pos odd]
    exact if_pos (z_double h)
  | succ k ih =>
    -- Whether the point is added or not, the sum is on the axis or at infinity.
    refine ih (if n.testBit (k + 1) then acc.double.addAffine x 0 else acc.double) ?_
    split_ifs
    · have hadd : acc.double.addAffine x 0 = ⟨x, 0, 1⟩ := if_pos (z_double h)
      rw [hadd]
      exact Fq2.zero_mul 1
    · rw [z_double h]
      exact Fq2.mul_zero _

/-- **No point of the second group lies on the `x` axis**: such a point has order two. -/
theorem multiple_order_ne_infinity (x : Fq2) :
    (Point.affine x 0).multiple order ≠ .infinity := by
  have hsum : Point.sumOfBits [(.affine x 0, order)] (order.log2 + 1) .infinity = ⟨x, 0, 1⟩ :=
    sumOfBits_axis (by decide) _ _ (Fq2.mul_zero 1)
  have hbits : [(Point.affine x 0, order)].foldl (fun n p => max n (p.2.log2 + 1)) 0 =
      order.log2 + 1 := Nat.zero_max _
  unfold Point.multiple Point.sumOfMultiples
  dsimp only
  rw [hbits, hsum, Jacobian.toPoint]
  have hone : (1 : Fq2) ≠ 0 := by decide
  rw [if_neg hone]
  nofun

theorem curvePoint_g2 : (curvePoint : Format G2) = (coordinate.pair flagged).convert
    (fun c => G2.mk <$> pointOf b2 Fq2.sqrt? Fq2.larger (⟨c.1, c.2.1⟩, c.2.2))
    fun p => ((flaggedOf Fq2.larger p.point).1.c0, (flaggedOf Fq2.larger p.point).1.c1,
      (flaggedOf Fq2.larger p.point).2) := by
  refine Format.ext ?_ ?_ ?_
  · funext p
    rcases p with ⟨_ | ⟨x, y⟩⟩
    · rfl
    · rfl
  · rw [convert, pair, read_coordinate, read_flagged]
    simp only [bind_assoc, pure_bind]
    exact congrArg (decodeCoordinate >>= ·) (funext fun c0 => congrArg (decodeFlagged >>= ·)
      (funext fun c => recover_eq G2.mk (⟨c0, c.1⟩, c.2)))
  · funext p n
    exact propext (iff_of_false (fun h => h)
      (Whole.pair (fun _ _ h => h) (fun _ _ h => h) (F := coordinate) (G := flagged) _ _))

/-- **The points of the second group have a lawful encoding.** -/
instance : LawfulPointEncoding G2 where
  OnCurve p := p.point.OnCurve b2
  IsFinite p := p.point ≠ .infinity
  safe := by
    rw [curvePoint_g2]
    exact ((safe_integer _).convert.pair (safe_integer _).convert).convert
  lawful := by
    rw [curvePoint_g2]
    refine (lawful_coordinate.pair lawful_flagged).convert (fun p hp => ⟨⟨trivial, trivial⟩, ?_⟩)
      (fun c p h hp => ⟨⟨trivial, trivial⟩, ?_⟩) fun _ _ => ⟨trivial, trivial⟩
    · show G2.mk <$> pointOf b2 Fq2.sqrt? Fq2.larger (flaggedOf Fq2.larger p.point) = _
      rw [pointOf_flaggedOf squareRoots_fq2 hp]
      rfl
    · obtain ⟨point, hpoint, rfl⟩ := Outcome.map_eq_ok.1 h
      have hflagged : flaggedOf Fq2.larger point = (⟨c.1, c.2.1⟩, c.2.2) := by
        refine flaggedOf_pointOf squareRoots_fq2 hpoint hp.2 ?_
        intro x r hpoint _ heq
        obtain rfl := Fq2.eq_neg_iff_eq_zero.1 heq
        rw [← heq, or_self] at hpoint
        have hgroup : point.multiple order = .infinity := eq_of_beq hp.1
        rw [hpoint] at hgroup
        exact multiple_order_ne_infinity x hgroup
      show ((flaggedOf Fq2.larger point).1.c0, (flaggedOf Fq2.larger point).1.c1,
        (flaggedOf Fq2.larger point).2) = c
      rw [hflagged]

end Bn254

end Groth16
