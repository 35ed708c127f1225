import Groth16.Proofs.Circuit.Layout
import Groth16.Proofs.Circuit.Witnesses
import Groth16.Proofs.Data.Dictionary
import Groth16.Proofs.Field.Literal
import Groth16.Statement.Files

/-!
# Reading back a statement

A statement names the values of the public inputs and writes them in decimal.  Reading it gives the
assignment of the names to these values, and the public witness of that is the one that the
statement was made for.

* `Assignment.ofLiterals_toDecimal`: decimals are read as what they were written for.
* `R1CS.publicWitness_ofList`: the public witness of the names with values is these values.
* `Statement.publicWitness_ofWitness`: the public witness of a statement is the one that it was made
  for.
-/

set_option autoImplicit false

namespace Groth16

variable {K : PrimeField}

namespace Assignment

/-- Decimals are read as what they were written for. -/
theorem ofLiterals_toDecimal (es : List (String × Fp K)) :
    ofLiterals (es.map fun e => (e.1, e.2.toDecimal)) = .ok (Dictionary.ofList es) := by
  have hall : ∀ a : Assignment K,
      (es.map fun e => (e.1, e.2.toDecimal)).foldlM (fun a e => setLiteral a e.1 e.2) a =
        .ok (a.insertAll es) := by
    induction es with
    | nil => exact fun _ => rfl
    | cons e es ih =>
      intro a
      have hset : setLiteral a e.1 e.2.toDecimal = .ok (a.insert e.1 e.2) := by
        rw [setLiteral, Literal.parse_toDecimal]
      rw [List.map_cons, List.foldlM_cons, hset]
      exact ih _
  exact hall Dictionary.empty

/-- Names with as many values are given these values. -/
theorem gives_ofList_zip {names : List String} {values : List (Fp K)} (distinct : names.Nodup)
    (length : values.length = names.length) :
    Gives (.ofList (names.zip values)) names ∧
      valuesOf (.ofList (names.zip values)) names = values := by
  have hnames : (names.zip values).map (·.1) = names := List.map_fst_zip length.ge
  have hvalues : (names.zip values).map (·.2) = values := List.map_snd_zip length.le
  have hdistinct : ((names.zip values).map (·.1)).Nodup := by rwa [hnames]
  have hfind : ∀ e ∈ names.zip values,
      (Dictionary.ofList (names.zip values)).find? e.1 = some e.2 := fun e he =>
    Dictionary.find?_ofList hdistinct he
  constructor
  · intro name
    rw [Dictionary.mem_names_ofList hdistinct, hnames]
  · have hmap : (names.zip values).map (fun e =>
        ((Dictionary.ofList (names.zip values)).find? e.1).getD 0) = (names.zip values).map (·.2) :=
      List.map_congr_left fun e he => by rw [hfind e he, Option.getD_some]
    calc valuesOf (.ofList (names.zip values)) names
        = valuesOf (.ofList (names.zip values)) ((names.zip values).map (·.1)) := by rw [hnames]
      _ = (names.zip values).map fun e =>
            ((Dictionary.ofList (names.zip values)).find? e.1).getD 0 := List.map_map
      _ = values := hmap.trans hvalues

end Assignment

/-- The public witness of the names with values is these values. -/
theorem R1CS.publicWitness_ofList {r : R1CS K} (modulus : r.modulus = K.descriptor)
    (distinct : r.publicNames.Nodup) {values : List (Fp K)} (length : values.length = r.numPublic) :
    r.publicWitness (Dictionary.ofList (r.publicNames.zip values)) =
      .ok ⟨values, r.digest, r.modulus⟩ := by
  obtain ⟨gives, hvalues⟩ := Assignment.gives_ofList_zip distinct length
  rw [publicWitness, Assignment.checkNames_eq_ok_iff.2 gives, hvalues, modulus,
    Modulus.ensure_descriptor]
  rfl

namespace Statement

/-- A statement is read as the assignment of the names to the values. -/
theorem ofLiterals_publics (circuit : String) (r : R1CS K) (w : PublicWitness K) :
    Assignment.ofLiterals (ofWitness circuit r w).publics.entries =
      .ok (Dictionary.ofList (r.publicNames.zip w.values)) := by
  have hpairs : r.publicNames.zip w.decimals =
      (r.publicNames.zip w.values).map fun e => (e.1, e.2.toDecimal) := by
    rw [PublicWitness.decimals, List.zip_map_right]
    rfl
  show Assignment.ofLiterals (Dictionary.ofList (r.publicNames.zip w.decimals)).entries = _
  rw [hpairs, Dictionary.entries_ofList_map, Assignment.ofLiterals_toDecimal,
    Dictionary.ofList_entries]

/-- **The public witness of a statement** is the one that it was made for. -/
theorem publicWitness_ofWitness {r : R1CS K} (modulus : r.modulus = K.descriptor)
    (distinct : r.publicNames.Nodup) {w : PublicWitness K} (length : w.values.length = r.numPublic)
    (digest : w.digest = r.digest) (field : w.modulus = r.modulus) (circuit : String) :
    ∃ publics, Assignment.ofLiterals (ofWitness circuit r w).publics.entries = .ok publics ∧
      r.publicWitness publics = .ok w := by
  refine ⟨_, ofLiterals_publics circuit r w, ?_⟩
  rw [R1CS.publicWitness_ofList modulus distinct length, ← digest, ← field]

end Statement

end Groth16
