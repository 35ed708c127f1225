import Groth16.Proofs.Statement.Publics

/-!
# From the prover's statement to the verifier's

Public witnesses are made for a compiled circuit from all inputs, or from the public ones alone.
Either way they have a value for every public input, and their statement has an entry for every
public input that the circuit declares.  What the verifier reads from it is the same public witness.

* `ConstraintSystem.size_solve`: solving keeps the length of a vector, whatever the hints are.
* `PublicWitness.MadeFor`: the public witnesses of a system.
* `Circuit.compile_publics`: the public inputs of a compiled circuit are those that it declares.
* `statement_read_back`: the statement is read as the public witness that it was made for.
-/

set_option autoImplicit false

namespace Groth16

variable {K : PrimeField}

/-! ## Lengths -/

namespace ConstraintSystem

variable {s : ConstraintSystem K} {z y : Array (Fp K)}

theorem size_replayHint {hint : Hint K} (h : s.replayHint z hint = .ok y) : y.size = z.size := by
  rw [replayHint] at h
  split at h
  · cases h
  cases hvalue : hint.recipe.solve? z with
  | none =>
    rw [hvalue] at h
    obtain ⟨u, -, hreport⟩ := Outcome.bind_eq_ok.1 h
    cases hreport
  | some x =>
    rw [hvalue] at h
    dsimp only at h
    split at h
    · obtain rfl := Except.ok.inj h
      exact Array.size_setIfInBounds
    · cases h

theorem size_replay {hints : List (Hint K)} (h : s.replay z hints = .ok y) : y.size = z.size := by
  induction hints generalizing z with
  | nil => rw [Except.ok.inj h]
  | cons hint hints ih =>
    obtain ⟨x, hx, hrest⟩ := Outcome.bind_eq_ok.1 h
    rw [ih hrest, size_replayHint hx]

/-- A vector that is solved keeps its length. -/
theorem size_solve (h : s.solve z = .ok y) : y.size = z.size := by
  obtain ⟨x, hx, h⟩ := Outcome.bind_eq_ok.1 h
  obtain ⟨-, -, h⟩ := Outcome.bind_eq_ok.1 h
  obtain rfl := Except.ok.inj h
  exact size_replay hx

/-- The vector to be solved has room for the inputs. -/
theorem numInstance_le_size_seed (secret publics : Assignment K) :
    s.numInstance ≤ (s.seed secret publics).size := by
  rw [seed, List.size_toArray, List.length_append, List.length_cons, List.length_append,
    Assignment.valuesOf, List.length_map, numInstance, numPublic]
  omega

end ConstraintSystem

/-! ## The public witnesses of a system -/

/-- A public witness from the public inputs has their values. -/
theorem R1CS.publicWitness_eq_ok {r : R1CS K} {publics : Assignment K} {w : PublicWitness K}
    (h : r.publicWitness publics = .ok w) :
    w = ⟨publics.valuesOf r.publicNames, r.digest, r.modulus⟩ := by
  obtain ⟨-, -, h⟩ := Outcome.bind_eq_ok.1 h
  obtain ⟨-, -, h⟩ := Outcome.bind_eq_ok.1 h
  exact (Except.ok.inj h).symm

/-- A public witness is made for a system, as the public part of what is assigned, or from the
public inputs alone. -/
inductive PublicWitness.MadeFor (r : R1CS K) : PublicWitness K → Prop
  /-- From all inputs. -/
  | assigned {secret publics : Assignment K} {w : Witness K}
      (h : r.assign secret publics = .ok w) : MadeFor r w.publicPart
  /-- From the public inputs. -/
  | stated {publics : Assignment K} {w : PublicWitness K}
      (h : r.publicWitness publics = .ok w) : MadeFor r w

namespace PublicWitness.MadeFor

variable {r : R1CS K} {w : PublicWitness K}

/-- A public witness has as many values as there are public inputs. -/
theorem length (made : MadeFor r w) : w.values.length = r.numPublic := by
  cases made with
  | assigned h =>
    obtain ⟨-, -, z, hz, rfl⟩ := R1CS.assign_eq_ok h
    have hroom := ConstraintSystem.numInstance_le_size_seed (s := r.toConstraintSystem)
    have hsize := (hroom _ _).trans (ConstraintSystem.size_solve hz).ge
    rw [ConstraintSystem.numInstance] at hsize
    show ((z.toList.drop 1).take r.numPublic).length = r.numPublic
    rw [List.length_take, List.length_drop, Array.length_toList]
    omega
  | stated h =>
    obtain rfl := R1CS.publicWitness_eq_ok h
    exact List.length_map _

/-- A public witness is marked for its system. -/
theorem marks (made : MadeFor r w) : w.digest = r.digest ∧ w.modulus = r.modulus := by
  cases made with
  | assigned h =>
    obtain ⟨-, -, z, -, rfl⟩ := R1CS.assign_eq_ok h
    exact ⟨rfl, rfl⟩
  | stated h =>
    obtain rfl := R1CS.publicWitness_eq_ok h
    exact ⟨rfl, rfl⟩

end PublicWitness.MadeFor

/-! ## The public inputs of a circuit -/

namespace Circuit

theorem precheck_eq_ok {modulus : Modulus} {schema : Schema}
    (h : precheck K modulus schema = .ok ()) : modulus = K.descriptor ∧ schema.Valid := by
  obtain ⟨-, -, hvalidate⟩ := Outcome.bind_eq_ok.1 h
  refine ⟨?_, Schema.validate_eq_ok_iff.1 hvalidate⟩
  rw [← Modulus.isFor_iff]
  by_contra hnot
  rw [precheck, Modulus.ensure, if_neg hnot] at h
  cases h

/-- The public inputs of a compiled circuit are those that it declares, under different names, and
the system is one over the field. -/
theorem compile_publics {c : Circuit K} {modulus : Modulus} {session : Nat} {r : R1CS K}
    (h : c.compile modulus session = .ok r) :
    r.publicNames = c.schema.names .public ∧ r.publicNames.Nodup ∧ r.modulus = K.descriptor := by
  obtain ⟨hpre, b, -, rfl⟩ := Compilation.compile_eq_ok h
  obtain ⟨rfl, valid⟩ := precheck_eq_ok hpre
  exact ⟨rfl, (List.nodup_append.1 valid.nodup_names).1, rfl⟩

end Circuit

/-! ## The entries of a statement -/

namespace Statement

variable {r : R1CS K} {w : PublicWitness K}

/-- The literals of a statement go by the names of the public inputs. -/
theorem map_fst_zip_decimals (length : w.values.length = r.numPublic) :
    (r.publicNames.zip w.decimals).map (·.1) = r.publicNames := by
  refine List.map_fst_zip ?_
  rw [PublicWitness.decimals, List.length_map]
  exact length.ge

/-- The names of a statement are those of the public inputs. -/
theorem perm_names_ofWitness (distinct : r.publicNames.Nodup)
    (length : w.values.length = r.numPublic) (circuit : String) :
    (ofWitness circuit r w).publics.names.Perm r.publicNames := by
  have hnames := map_fst_zip_decimals length
  have hdistinct : ((r.publicNames.zip w.decimals).map (·.1)).Nodup := by rwa [hnames]
  have hperm := Dictionary.perm_names_ofList hdistinct
  rwa [hnames] at hperm

/-- The entry of a public input is its value in decimal. -/
theorem find?_ofWitness (distinct : r.publicNames.Nodup)
    (length : w.values.length = r.numPublic) (circuit : String) {e : String × Fp K}
    (mem : e ∈ r.publicNames.zip w.values) :
    (ofWitness circuit r w).publics.find? e.1 = some e.2.toDecimal := by
  have hmem : (e.1, e.2.toDecimal) ∈ r.publicNames.zip w.decimals := by
    rw [PublicWitness.decimals, List.zip_map_right]
    exact List.mem_map_of_mem (f := Prod.map id Fp.toDecimal) mem
  exact Dictionary.find?_ofList (by rwa [map_fst_zip_decimals length]) hmem

end Statement

/-- **The statement that the prover writes is the one that the verifier checks.**  Let a circuit
compile, and a public witness be made for it from any inputs.  The statement has one entry for every
public input that the circuit declares, the decimal of its value, next to the name and the digest of
the circuit.  Its literals are read, and their public witness is the one that the statement was made
for. -/
theorem statement_read_back {c : Circuit K} {modulus : Modulus} {session : Nat} {r : R1CS K}
    (compiled : c.compile modulus session = .ok r) {w : PublicWitness K}
    (made : PublicWitness.MadeFor r w) (circuit : String) :
    (Statement.ofWitness circuit r w).publics.names.Perm (c.schema.names .public) ∧
      (∀ e ∈ (c.schema.names .public).zip w.values,
        (Statement.ofWitness circuit r w).publics.find? e.1 = some e.2.toDecimal) ∧
      (Statement.ofWitness circuit r w).circuit = circuit ∧
      (Statement.ofWitness circuit r w).digest = r.digest.hex ∧
      ∃ publics,
        Assignment.ofLiterals (Statement.ofWitness circuit r w).publics.entries = .ok publics ∧
          r.publicWitness publics = .ok w := by
  obtain ⟨hnames, distinct, hmodulus⟩ := Circuit.compile_publics compiled
  obtain ⟨hdigest, hfield⟩ := made.marks
  rw [← hnames]
  exact ⟨Statement.perm_names_ofWitness distinct made.length circuit,
    fun e mem => Statement.find?_ofWitness distinct made.length circuit mem, rfl,
    congrArg Digest.hex hdigest,
    Statement.publicWitness_ofWitness hmodulus distinct made.length hdigest hfield circuit⟩

/-- Two public inputs, declared against the order of their names. -/
def Sample.reversed : Circuit Sample.field :=
  ⟨⟨[⟨"z", .public⟩, ⟨"a", .public⟩]⟩, fun _ => return ()⟩

/-- Values in the order of the wires are written and read by their names. -/
theorem statement_read_back_sample :
    ∃ r w, Sample.reversed.compile Sample.field.descriptor 1 = .ok r ∧
      PublicWitness.MadeFor r w ∧ w.values = [8, 96] ∧
      (Statement.ofWitness "reversed" r w).publics.find? "z" = some "8" ∧
      (Statement.ofWitness "reversed" r w).publics.find? "a" = some "96" ∧
      ∃ publics,
        Assignment.ofLiterals (Statement.ofWitness "reversed" r w).publics.entries = .ok publics ∧
          r.publicWitness publics = .ok w := by
  obtain ⟨r, compiled⟩ : ∃ r, Sample.reversed.compile Sample.field.descriptor 1 = .ok r := ⟨_, rfl⟩
  obtain ⟨hnames, distinct, hmodulus⟩ := Circuit.compile_publics compiled
  have length : ([8, 96] : List (Fp Sample.field)).length = r.numPublic := by
    rw [ConstraintSystem.numPublic, hnames]
    rfl
  have made := PublicWitness.MadeFor.stated (R1CS.publicWitness_ofList hmodulus distinct length)
  obtain ⟨-, hentries, -, -, hread⟩ := statement_read_back compiled made "reversed"
  exact ⟨r, _, compiled, made, rfl, hentries ("z", 8) List.mem_cons_self,
    hentries ("a", 96) (List.mem_cons_of_mem _ List.mem_cons_self), hread⟩

end Groth16
