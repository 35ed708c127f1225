import Groth16.Proofs.Circuit.Soundness
import Groth16.Proofs.Circuit.Uniform
import Groth16.Proofs.Data.Delimited

/-!
# Digests stand for systems

The bytes that are hashed for a system are its parts, written one behind the other.  Every part says
where it ends, so that the bytes tell all parts; what they leave out is the number of the
compilation in the handles.  Counts and indices are written as 64-bit words, which a machine with
64-bit words never exceeds; where this matters here, it is assumed (`Fits`).

* `Fits`, for combinations, constraints, recipes, hints, names and systems: every count and every
  index fits into a word.
* `delimited_stream`, for the same: the bytes tell what they stand for, but for compilations.
* `ConstraintSystem.stream_eq_iff`: equal bytes mean equal systems, but for compilations.
* `digest_binding`: so do equal digests, unless two byte strings collide under the hash; and compiling
  a circuit again gives the same digest.
-/

set_option autoImplicit false

namespace Groth16

open Bytes (Delimited)

variable {K : PrimeField}

/-! ## What fits into words -/

/-- The number of terms and the index of every wire fit into words. -/
def LinearCombination.Fits (a : LinearCombination K) : Prop :=
  a.terms.length < 256 ^ 8 ∧ ∀ t ∈ a.terms, t.wire.index < 256 ^ 8

instance (a : LinearCombination K) : Decidable a.Fits :=
  inferInstanceAs (Decidable (_ ∧ ∀ t ∈ a.terms, _))

/-- The three combinations fit. -/
def Constraint.Fits (c : Constraint K) : Prop := c.a.Fits ∧ c.b.Fits ∧ c.c.Fits

instance (c : Constraint K) : Decidable c.Fits := inferInstanceAs (Decidable (_ ∧ _ ∧ _))

/-- The number of the bit, where there is one, and the operands fit. -/
def Recipe.Fits (r : Recipe K) : Prop :=
  (∀ i ∈ r.bitIndex?, i < 256 ^ 8) ∧ ∀ a ∈ r.operands, a.Fits

instance (r : Recipe K) : Decidable r.Fits :=
  inferInstanceAs (Decidable ((∀ i ∈ r.bitIndex?, _) ∧ ∀ a ∈ r.operands, a.Fits))

/-- The wire, the row and the recipe fit. -/
def Hint.Fits (h : Hint K) : Prop := h.output < 256 ^ 8 ∧ h.row < 256 ^ 8 ∧ h.recipe.Fits

instance (h : Hint K) : Decidable h.Fits := inferInstanceAs (Decidable (_ ∧ _ ∧ _))

namespace ConstraintSystem

/-- The number of names and the number of bytes of every name fit into words. -/
def NamesFit (names : List String) : Prop :=
  names.length < 256 ^ 8 ∧ ∀ n ∈ names, (Bytes.ofText n).length < 256 ^ 8

instance (names : List String) : Decidable (NamesFit names) :=
  inferInstanceAs (Decidable (_ ∧ ∀ n ∈ names, _))

/-- Every count and every index in a system fits into a word, as they do wherever a machine holds them
in words itself. -/
structure Fits (s : ConstraintSystem K) : Prop where
  /-- The number of bytes of the modulus fits. -/
  modulus : s.modulus.bytes.length < 256 ^ 8
  /-- The number of wires fits. -/
  numWires : s.numWires < 256 ^ 8
  /-- The names of public inputs fit. -/
  publicNames : NamesFit s.publicNames
  /-- The names of secret inputs fit. -/
  secretNames : NamesFit s.secretNames
  /-- The constraints fit, and so does their number. -/
  constraints : s.constraints.toList.length < 256 ^ 8 ∧ ∀ c ∈ s.constraints.toList, c.Fits
  /-- The hints fit, and so does their number. -/
  hints : s.hints.toList.length < 256 ^ 8 ∧ ∀ h ∈ s.hints.toList, h.Fits

end ConstraintSystem

/-! ## Combinations and constraints -/

theorem Fp.delimited_toBytes : Delimited (toBytes : Fp K → Bytes) id fun _ => True := by
  intro a b _ _ s t eq
  obtain ⟨hval, hrest⟩ := Bytes.delimited_littleEndian K.byteLength a.val_lt_pow_byteLength
    b.val_lt_pow_byteLength eq
  exact ⟨Fp.ext hval, hrest⟩

namespace LinearCombination

theorem delimited_word : Delimited word id (· < 256 ^ 8) := Bytes.delimited_littleEndian 8

theorem delimited_termStream :
    Delimited (termStream : Term K → Bytes) (Term.relabel .anonymous)
      (·.wire.index < 256 ^ 8) := by
  intro x y hx hy s t eq
  rw [termStream, termStream, List.append_assoc, List.append_assoc] at eq
  obtain ⟨hindex, eq⟩ := delimited_word hx hy eq
  obtain ⟨hrole, eq⟩ := List.cons.inj eq
  obtain ⟨hcoeff, hrest⟩ := Fp.delimited_toBytes trivial trivial eq
  refine ⟨?_, hrest⟩
  obtain ⟨_, _, _, _⟩ := x
  obtain ⟨_, _, _, _⟩ := y
  obtain rfl := Role.code_injective hrole
  obtain rfl := hindex
  obtain rfl := hcoeff
  rfl

theorem delimited_stream :
    Delimited (stream : LinearCombination K → Bytes) (relabel .anonymous) Fits := by
  intro x y hx hy s t eq
  obtain ⟨hterms, hrest⟩ := delimited_termStream.counted 8 hx hy eq
  exact ⟨congrArg LinearCombination.mk hterms, hrest⟩

end LinearCombination

theorem Constraint.delimited_stream :
    Delimited (stream : Constraint K → Bytes) (relabel .anonymous) Fits := by
  intro x y hx hy s t eq
  simp only [stream, List.cons_append, List.append_assoc] at eq
  obtain ⟨htag, eq⟩ := List.cons.inj eq
  obtain ⟨ha, eq⟩ := LinearCombination.delimited_stream hx.1 hy.1 eq
  obtain ⟨hb, eq⟩ := LinearCombination.delimited_stream hx.2.1 hy.2.1 eq
  obtain ⟨hc, hrest⟩ := LinearCombination.delimited_stream hx.2.2 hy.2.2 eq
  rw [relabel, relabel, ha, hb, hc, Tag.code_injective htag]
  exact ⟨rfl, hrest⟩

/-! ## Recipes and hints -/

namespace Recipe

variable {r r' : Recipe K}

/-- How many operands a recipe of a kind has. -/
def arity (code : UInt8) : Nat := if code = 0 ∨ code = 2 then 2 else 1

theorem length_operands (r : Recipe K) : r.operands.length = arity r.code := by
  cases r <;> rfl

/-- Bits are the only kind that comes with a number. -/
theorem isSome_bitIndex? (r : Recipe K) : r.bitIndex?.isSome = (r.code == 5) := by
  cases r <;> rfl

/-- A recipe is its kind, the number of the bit and the operands. -/
theorem eq_of_parts (code : r.code = r'.code) (bitIndex : r.bitIndex? = r'.bitIndex?)
    (operands : r.operands = r'.operands) : r = r' := by
  cases r <;> cases r' <;> simp_all [Recipe.code, Recipe.operands, bitIndex?]

theorem bitIndex?_eq_of_append (code : r.code = r'.code) (fits : r.Fits) (fits' : r'.Fits)
    {s t : Bytes} (eq : r.bitIndex?.elim [] LinearCombination.word ++ s =
      r'.bitIndex?.elim [] LinearCombination.word ++ t) : r.bitIndex? = r'.bitIndex? ∧ s = t := by
  have hsome : r.bitIndex?.isSome = r'.bitIndex?.isSome := by
    rw [isSome_bitIndex?, isSome_bitIndex?, code]
  have hfits := fits.1
  have hfits' := fits'.1
  cases hi : r.bitIndex? with
  | none =>
    rw [hi] at hsome eq
    rw [Option.isSome_eq_false_iff.1 hsome.symm |> Option.isNone_iff_eq_none.1] at eq ⊢
    exact ⟨rfl, eq⟩
  | some i =>
    rw [hi] at hsome eq hfits
    obtain ⟨j, hj⟩ := Option.isSome_iff_exists.1 hsome.symm
    rw [hj] at eq hfits' ⊢
    obtain ⟨hij, hrest⟩ := LinearCombination.delimited_word (hfits i rfl) (hfits' j rfl) eq
    exact ⟨congrArg some hij, hrest⟩

end Recipe

theorem Hint.delimited_stream :
    Delimited (stream : Hint K → Bytes) (relabel .anonymous) Fits := by
  intro x y hx hy s t eq
  simp only [stream, List.cons_append, List.append_assoc] at eq
  obtain ⟨houtput, eq⟩ := LinearCombination.delimited_word hx.1 hy.1 eq
  obtain ⟨hrow, eq⟩ := LinearCombination.delimited_word hx.2.1 hy.2.1 eq
  obtain ⟨hcode, eq⟩ := List.cons.inj eq
  obtain ⟨hbit, eq⟩ := Recipe.bitIndex?_eq_of_append hcode hx.2.2 hy.2.2 eq
  obtain ⟨hoperands, hrest⟩ := LinearCombination.delimited_stream.flatMap
    (by rw [Recipe.length_operands, Recipe.length_operands, hcode]) hx.2.2.2 hy.2.2.2 eq
  have hrecipe : x.recipe.relabel .anonymous = y.recipe.relabel .anonymous := by
    refine Recipe.eq_of_parts ?_ ?_ ?_
    · rw [Recipe.code_relabel, Recipe.code_relabel, hcode]
    · rw [Recipe.bitIndex?_relabel, Recipe.bitIndex?_relabel, hbit]
    · rw [Recipe.operands_relabel, Recipe.operands_relabel]
      exact hoperands
  have houtput : x.output = y.output := houtput
  have hrow : x.row = y.row := hrow
  rw [relabel, relabel, houtput, hrow, hrecipe]
  exact ⟨rfl, hrest⟩

/-! ## Systems -/

theorem Modulus.eq_of_bytes {m m' : Modulus} (h : m.bytes = m'.bytes) : m = m' := by
  obtain ⟨_, _⟩ := m
  obtain rfl := h
  rfl

namespace ConstraintSystem

theorem delimited_framed : Delimited framed id (·.length < 256 ^ 8) := by
  intro x y hx hy s t eq
  rw [framed, framed, List.append_assoc, List.append_assoc] at eq
  obtain ⟨length, eq⟩ := LinearCombination.delimited_word hx hy eq
  exact List.append_inj eq length

theorem delimited_nameStream : Delimited nameStream id NamesFit := by
  have hname : Delimited (fun n => framed (Bytes.ofText n)) id
      fun n => (Bytes.ofText n).length < 256 ^ 8 := by
    intro x y hx hy s t eq
    obtain ⟨htext, hrest⟩ := delimited_framed hx hy eq
    exact ⟨Bytes.ofText_injective htext, hrest⟩
  intro x y hx hy s t eq
  obtain ⟨hnames, hrest⟩ := hname.counted 8 hx hy eq
  rw [List.map_id, List.map_id] at hnames
  exact ⟨hnames, hrest⟩

/-- **The bytes of a system tell the system**, but for compilations. -/
theorem relabel_anonymous_eq_of_stream_eq {s s' : ConstraintSystem K} (fits : s.Fits)
    (fits' : s'.Fits) (eq : s.stream = s'.stream) :
    s.relabel .anonymous = s'.relabel .anonymous := by
  simp only [stream, List.append_assoc] at eq
  obtain ⟨hmodulus, eq⟩ := delimited_framed fits.modulus fits'.modulus (List.append_cancel_left eq)
  obtain ⟨hnumWires, eq⟩ := LinearCombination.delimited_word fits.numWires fits'.numWires eq
  obtain ⟨hpublic, eq⟩ := delimited_nameStream fits.publicNames fits'.publicNames eq
  obtain ⟨hsecret, eq⟩ := delimited_nameStream fits.secretNames fits'.secretNames eq
  obtain ⟨hconstraints, eq⟩ := Constraint.delimited_stream.counted 8 fits.constraints
    fits'.constraints eq
  obtain ⟨hhints, -⟩ := Hint.delimited_stream.counted 8 fits.hints fits'.hints
    (congrArg (· ++ []) eq)
  rw [relabel, relabel, mk.injEq]
  refine ⟨Array.ext' ?_, hnumWires, hpublic, hsecret, Array.ext' ?_, Modulus.eq_of_bytes hmodulus⟩
  · rwa [Array.toList_map, Array.toList_map]
  · rwa [Array.toList_map, Array.toList_map]

/-- Two systems have the same bytes exactly if they are the same, but for compilations. -/
theorem stream_eq_iff {s s' : ConstraintSystem K} (fits : s.Fits) (fits' : s'.Fits) :
    s.stream = s'.stream ↔ s.relabel .anonymous = s'.relabel .anonymous := by
  refine ⟨relabel_anonymous_eq_of_stream_eq fits fits', fun same => ?_⟩
  calc s.stream = (s.relabel .anonymous).stream := (stream_relabel _ s).symm
    _ = (s'.relabel .anonymous).stream := by rw [same]
    _ = s'.stream := stream_relabel _ s'

end ConstraintSystem

/-! ## Digests -/

theorem Digest.of_eq_iff {s t : Bytes} : Digest.of s = .of t ↔ Blake3.hash s = Blake3.hash t := by
  rw [Digest.of, Digest.of, Digest.mk.injEq]

/-- Systems that are the same but for handles have one digest. -/
theorem R1CS.digest_eq_of_relabel {g : Relabeling} {r r' : R1CS K}
    (h : r'.toConstraintSystem = r.toConstraintSystem.relabel g) : r'.digest = r.digest := by
  rw [r.digest_eq, r'.digest_eq, h, ConstraintSystem.stream_relabel]

/-- **Digests stand for systems.**  Two compiled systems have the same bytes exactly if they are the
same, but for compilations: they have the same modulus and number of wires, the same names in order,
the same constraints with their tags, and the same hints.  They have the same digest exactly if they
are the same or the hash collides on their bytes.  Circuits with the same inputs that make the same
calls, but for the number of the compilation, have the same digest; and a circuit that does not look
at the number compiles in every other compilation, to the same digest. -/
theorem digest_binding {c c' : Circuit K} {modulus modulus' : Modulus} {session session' : Nat}
    {calls calls' : List (Call K)} {r r' : R1CS K}
    (compilation : Compilation c modulus session calls r)
    (compilation' : Compilation c' modulus' session' calls' r') :
    (r.Fits → r'.Fits →
      (r.stream = r'.stream ↔
        r.toConstraintSystem.relabel .anonymous = r'.toConstraintSystem.relabel .anonymous) ∧
      (r.digest = r'.digest ↔
        r.toConstraintSystem.relabel .anonymous = r'.toConstraintSystem.relabel .anonymous ∨
          r.stream ≠ r'.stream ∧ Blake3.hash r.stream = Blake3.hash r'.stream)) ∧
    (∀ f : Nat → Nat, Function.Injective f → f session = session' → c'.schema = c.schema →
      calls'.map (·.operation) = calls.map (·.operation.relabel (.rename f)) →
      r'.digest = r.digest) ∧
    (c.Uniform → ∀ other, ∃ r'', c.compile modulus other = .ok r'' ∧ r''.digest = r.digest) := by
  refine ⟨fun fits fits' => ?_, fun f inj renamed schema same => ?_, fun uniform other => ?_⟩
  · have hstream := ConstraintSystem.stream_eq_iff fits fits'
    refine ⟨hstream, ?_⟩
    rw [r.digest_eq, r'.digest_eq, Digest.of_eq_iff, ← hstream]
    by_cases hsame : r.stream = r'.stream
    · simp [hsame]
    · simp [hsame]
  · exact R1CS.digest_eq_of_relabel
      (compilation.relabel_eq compilation' inj renamed schema same)
  · obtain ⟨r'', hcompile, hsystem⟩ :=
      uniform.compile_eq (Equiv.swap session other).injective compilation.compiled
    rw [Equiv.swap_apply_left] at hcompile
    exact ⟨r'', hcompile, R1CS.digest_eq_of_relabel hsystem⟩

/-! ## A circuit in two compilations -/

namespace Sample

open LinearCombination (ofWire)

/-- What the cubic circuit calls in a compilation. -/
def cubicOperations (session : Nat) : List (Operation field) :=
  let y := ofWire ⟨1, .public, session⟩
  let x := ofWire ⟨2, .secret, session⟩
  let cube := ofWire (.internal session 4)
  let five := LinearCombination.constant (.ofNat field 5)
  [.mulMany [x, x, x], .sum [cube, x, five], .assertEqual y (cube + x + five)]

/-- The calls that it makes. -/
def cubicCalls (session : Nat) : List (Call field) := callsOf session 3 (cubicOperations session)

theorem exists_cubic {session : Nat} (h : session = 1 ∨ session = 2) :
    ∃ r, Compilation Circuit.cubic field.descriptor session (cubicCalls session) r := by
  rcases h with rfl | rfl
  · exact ⟨_, rfl, _, _, _, rfl, rfl, .of_runAll (by decide) rfl⟩
  · exact ⟨_, rfl, _, _, _, rfl, rfl, .of_runAll (by decide) rfl⟩

theorem fits_cubic {session : Nat} (hsession : session = 1 ∨ session = 2) {r : R1CS field}
    (h : Compilation Circuit.cubic field.descriptor session (cubicCalls session) r) : r.Fits := by
  obtain ⟨ops, ⟨modulus, -, -, records⟩, hcalls⟩ := h.exists_recorded
  obtain ⟨rfl, -⟩ := hcalls (successful_callsOf session 3 (cubicOperations session))
  have hfirst : r.firstInternal = 3 := h.firstInternal_eq
  refine ⟨?_, ?_, ?_, ?_, ?_, ?_⟩
  · rw [modulus]
    decide +kernel
  · rw [records.numWires, hfirst]
    rcases hsession with rfl | rfl
    · decide +kernel
    · decide +kernel
  · rw [h.names.1]
    decide +kernel
  · rw [h.names.2]
    decide +kernel
  · rw [records.constraints, hfirst]
    rcases hsession with rfl | rfl
    · decide +kernel
    · decide +kernel
  · rw [records.hints, hfirst]
    rcases hsession with rfl | rfl
    · decide +kernel
    · decide +kernel

end Sample

/-- The cubic circuit has one system, but for compilations, and one digest in three compilations. -/
theorem digest_binding_sample :
    ∃ r r', Compilation Circuit.cubic Sample.field.descriptor 1 (Sample.cubicCalls 1) r ∧
      Compilation Circuit.cubic Sample.field.descriptor 2 (Sample.cubicCalls 2) r' ∧
      r.Fits ∧ r'.Fits ∧
      r.toConstraintSystem.relabel .anonymous = r'.toConstraintSystem.relabel .anonymous ∧
      r'.digest = r.digest ∧
      ∃ r'', (Circuit.cubic : Circuit Sample.field).compile Sample.field.descriptor 3 = .ok r'' ∧
        r''.digest = r.digest := by
  obtain ⟨r, h⟩ := Sample.exists_cubic (.inl rfl)
  obtain ⟨r', h'⟩ := Sample.exists_cubic (.inr rfl)
  have fits := Sample.fits_cubic (.inl rfl) h
  have fits' := Sample.fits_cubic (.inr rfl) h'
  have same : (Sample.cubicCalls 2).map (·.operation) =
      (Sample.cubicCalls 1).map (·.operation.relabel (.rename (Equiv.swap 1 2))) := by
    decide +kernel
  have hsystem := h.relabel_eq h' (Equiv.injective _) rfl rfl same
  have hbytes : r.stream = r'.stream := by
    rw [hsystem, ConstraintSystem.stream_relabel]
  obtain ⟨hfits, hcalls, huniform⟩ := digest_binding h h'
  exact ⟨r, r', h, h', fits, fits', (hfits fits fits').1.1 hbytes,
    hcalls _ (Equiv.injective _) rfl rfl same, huniform Circuit.uniform_cubic 3⟩

end Groth16
