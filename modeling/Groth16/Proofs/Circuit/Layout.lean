import Groth16.Proofs.Circuit.Witnesses

/-!
# The layout of wires

Four computations place the inputs of a circuit: their wires are allocated, by role; the vector of
an assignment is seeded with values that are looked up by name; the public part is cut out of a
witness; and it is put together from the public inputs alone.  They share no code, and a value for
a missing name would be zero.  This file shows that they are at one, and that no name is missing
where there is a witness.

* `Schema.Valid`: what is asked of declarations; `Schema.validate` asks for just this.
* `Schema.exists_get`: the wire that a definition gets for a declared name.
* `Compilation.checkInputs_eq_ok_iff`: the assignments that are accepted.
* `Compilation.exists_values`: the vector of a witness.
* `wire_layout`: all of these together.
-/

set_option autoImplicit false

namespace Groth16

variable {K : PrimeField}

/-! ## Declarations -/

namespace Schema

variable {schema : Schema}

/-- What is asked of the declarations of a schema. -/
structure Valid (schema : Schema) : Prop where
  /-- Every name can be read. -/
  legible : ∀ d ∈ schema.inputs, d.name.isEmpty = false ∧ isIllegible d.name = false
  /-- Every input is public or secret. -/
  roles : ∀ d ∈ schema.inputs, isInputRole d.role = true
  /-- No name is declared twice, under whatever roles. -/
  distinct : (schema.inputs.map (·.name)).Nodup

theorem validateFrom_eq_ok_iff {seen : List String} {ds : List Declaration} :
    validateFrom seen ds = .ok () ↔
      (∀ d ∈ ds, d.name.isEmpty = false ∧ isIllegible d.name = false) ∧
        (∀ d ∈ ds, isInputRole d.role = true) ∧ (∀ d ∈ ds, d.name ∉ seen) ∧
          (ds.map (·.name)).Nodup := by
  induction ds generalizing seen with
  | nil => simp [validateFrom]
  | cons d ds ih =>
    rw [validateFrom, List.forall_mem_cons, List.forall_mem_cons, List.forall_mem_cons,
      List.map_cons, List.nodup_cons, List.mem_map]
    split
    · next hempty => simp [hempty]
    split
    · next hillegible => simp [hillegible]
    split
    · next hrole => simp_all
    split
    · next hseen => simp_all
    · next hempty hillegible hrole hseen =>
      rw [Bool.not_eq_true] at hempty hillegible
      rw [Bool.not_eq_true, Bool.not_eq_false'] at hrole
      rw [List.contains_iff_mem] at hseen
      rw [ih]
      constructor
      · rintro ⟨hlegible, hroles, hfresh, hdistinct⟩
        refine ⟨⟨⟨hempty, hillegible⟩, hlegible⟩, ⟨hrole, hroles⟩, ⟨hseen, fun x hx => ?_⟩, ?_,
          hdistinct⟩
        · exact fun h => hfresh x hx (List.mem_cons_of_mem _ h)
        · rintro ⟨x, hx, hname⟩
          exact hfresh x hx (hname ▸ List.mem_cons_self)
      · rintro ⟨⟨-, hlegible⟩, ⟨-, hroles⟩, ⟨-, hfresh⟩, hnew, hdistinct⟩
        refine ⟨hlegible, hroles, fun x hx h => ?_, hdistinct⟩
        rcases List.mem_cons.1 h with h | h
        · exact hnew ⟨x, hx, h⟩
        · exact hfresh x hx h

/-- The check of a schema passes exactly if its declarations are as they should be. -/
theorem validate_eq_ok_iff : schema.validate = .ok () ↔ schema.Valid := by
  rw [validate, validateFrom_eq_ok_iff]
  constructor
  · rintro ⟨hlegible, hroles, -, hdistinct⟩
    exact ⟨hlegible, hroles, hdistinct⟩
  · rintro ⟨hlegible, hroles, hdistinct⟩
    exact ⟨hlegible, hroles, fun _ _ => List.not_mem_nil, hdistinct⟩

theorem mem_names {role : Role} {name : String} :
    name ∈ schema.names role ↔ ⟨name, role⟩ ∈ schema.inputs := by
  rw [names, List.mem_map]
  constructor
  · rintro ⟨⟨_, _⟩, hd, rfl⟩
    obtain ⟨hmem, hrole⟩ := List.mem_filter.1 hd
    obtain rfl := of_decide_eq_true hrole
    exact hmem
  · intro h
    exact ⟨_, List.mem_filter.2 ⟨h, decide_eq_true rfl⟩, rfl⟩

/-- No two inputs have one name, also if their roles differ. -/
theorem Valid.nodup_names (h : schema.Valid) :
    (schema.names .public ++ schema.names .secret).Nodup := by
  have hrole : ∀ role, (schema.names role).Nodup := fun role =>
    h.distinct.sublist (List.filter_sublist.map _)
  refine List.nodup_append.2 ⟨hrole _, hrole _, fun name hpublic other hsecret hsame => ?_⟩
  subst hsame
  have := List.inj_on_of_nodup_map h.distinct (mem_names.1 hpublic) (mem_names.1 hsecret) rfl
  cases this

end Schema

/-! ## Wires of names -/

theorem map_fst_inputWires (role : Role) (session n : Nat) (names : List String) :
    (inputWires role session n names).map (·.1) = names := by
  induction names generalizing n with
  | nil => rfl
  | cons name names ih => rw [inputWires, List.map_cons, ih]

/-- Where no name is used twice, the first entry for a name is the only one. -/
theorem lookup_eq_some_of_mem {es : List (String × Wire)} (distinct : (es.map (·.1)).Nodup)
    {e : String × Wire} (mem : e ∈ es) : es.lookup e.1 = some e.2 := by
  obtain ⟨before, after, rfl⟩ := List.append_of_mem mem
  rw [List.map_append, List.nodup_append] at distinct
  refine List.lookup_eq_some_iff.2 ⟨before, after, rfl, fun x hx => ?_⟩
  have hne : x.1 ≠ e.1 := distinct.2.2 _ (List.mem_map_of_mem hx) _ List.mem_cons_self
  simpa using hne.symm

namespace Schema

variable {schema : Schema}

/-- Every declared name has a wire of its role. -/
theorem exists_wire (session : Nat) {d : Declaration} (mem : d ∈ schema.inputs)
    (role : isInputRole d.role = true) :
    ∃ w, (d.name, w) ∈ (schema.inputsOf session).wires ∧ w.role = d.role := by
  have hwires : ∀ n, ∃ w, (d.name, w) ∈ inputWires d.role session n (schema.names d.role) := by
    intro n
    have hname := mem_names.2 mem
    rw [← map_fst_inputWires d.role session n (schema.names d.role)] at hname
    obtain ⟨⟨_, w⟩, he, rfl⟩ := List.mem_map.1 hname
    exact ⟨w, he⟩
  have hrole : ∀ {n w}, (d.name, w) ∈ inputWires d.role session n (schema.names d.role) →
      w.role = d.role := by
    intro n w h
    obtain ⟨k, -, hw⟩ := exists_of_mem_inputWires h
    exact congrArg Wire.role hw
  obtain ⟨name, declared⟩ := d
  cases declared with
  | «public» =>
    obtain ⟨w, hw⟩ := hwires 1
    exact ⟨w, List.mem_append_left _ hw, hrole hw⟩
  | secret =>
    obtain ⟨w, hw⟩ := hwires (1 + (schema.names .public).length)
    exact ⟨w, List.mem_append_right _ hw, hrole hw⟩
  | constant => cases role
  | internal => cases role

/-- **A definition gets the wire of every declared name**, whatever it did before. -/
theorem Valid.exists_get (valid : schema.Valid) (session : Nat) {d : Declaration}
    (mem : d ∈ schema.inputs) :
    ∃ w, (d.name, w) ∈ (schema.inputsOf session).wires ∧ w.role = d.role ∧ ∀ b : Builder K,
      Build.runOn ((schema.inputsOf session).get d.name) b = (.ok w, b) := by
  obtain ⟨w, hw, hrole⟩ := exists_wire session mem (valid.roles d mem)
  have hdistinct : ((schema.inputsOf session).wires.map (·.1)).Nodup := by
    rw [inputsOf, List.map_append, map_fst_inputWires, map_fst_inputWires]
    exact valid.nodup_names
  refine ⟨w, hw, hrole, fun b => ?_⟩
  rw [Inputs.get, lookup_eq_some_of_mem hdistinct hw]
  rfl

end Schema

/-! ## Accepted assignments -/

namespace Assignment

/-- With a value for every name, none of the values is the zero for a missing one. -/
theorem mapM_find? {a : Assignment K} {names : List String} (h : a.Gives names) :
    names.mapM a.find? = some (a.valuesOf names) := by
  have hsome : ∀ ns, ns ⊆ names → ns.mapM a.find? = some (a.valuesOf ns) := by
    intro ns hns
    induction ns with
    | nil => rfl
    | cons name ns ih =>
      rw [List.cons_subset] at hns
      rw [List.mapM_cons, find?_of_gives h hns.1, ih hns.2]
      rfl
  exact hsome names (List.Subset.refl _)

/-! Nothing is unsatisfied before there are any wires. -/

section
variable {a : Assignment K} {declared other names : List String} {role otherRole : Role}
  {u : Unsatisfied}

theorem checkGiven_ne_unsatisfied :
    checkGiven declared other otherRole names ≠ .error (.unsatisfied u) := by
  intro h
  induction names with
  | nil => cases h
  | cons name names ih =>
    rw [checkGiven] at h
    split at h
    · exact ih h
    · split at h
      · cases h
      · cases h

theorem checkDeclared_ne_unsatisfied :
    a.checkDeclared role names ≠ .error (.unsatisfied u) := by
  intro h
  induction names with
  | nil => cases h
  | cons name names ih =>
    rw [checkDeclared] at h
    split at h
    · exact ih h
    · cases h

theorem checkNames_ne_unsatisfied :
    a.checkNames declared role other otherRole ≠ .error (.unsatisfied u) := by
  rw [checkNames]
  cases hgiven : checkGiven declared other otherRole a.names with
  | error e => exact fun h => checkGiven_ne_unsatisfied (hgiven.trans h)
  | ok _ => exact checkDeclared_ne_unsatisfied

end

end Assignment

namespace Compilation

variable {c : Circuit K} {modulus : Modulus} {session : Nat} {calls : List (Call K)} {r : R1CS K}
  {secret publics : Assignment K} {w : Witness K}

/-- A circuit that compiles has a valid schema. -/
theorem valid (h : Compilation c modulus session calls r) : c.schema.Valid := by
  obtain ⟨hpre, -⟩ := compile_eq_ok h.compiled
  obtain ⟨-, -, hvalidate⟩ := Outcome.bind_eq_ok.1 hpre
  exact Schema.validate_eq_ok_iff.1 hvalidate

/-- The checks that come before an assignment are those of its names. -/
theorem checkInputs_eq (h : Compilation c modulus session calls r) :
    r.checkInputs secret publics = (do
      publics.checkNames (c.schema.names .public) .public (c.schema.names .secret) .secret
      secret.checkNames (c.schema.names .secret) .secret (c.schema.names .public) .public) := by
  obtain ⟨ops, recorded, -⟩ := h.exists_recorded
  rw [R1CS.checkInputs, recorded.modulus, Modulus.ensure_descriptor, h.names.1, h.names.2]
  rfl

/-- **Exactly the declared inputs are accepted**, each under its role. -/
theorem checkInputs_eq_ok_iff (h : Compilation c modulus session calls r) :
    r.checkInputs secret publics = .ok () ↔
      publics.Gives (c.schema.names .public) ∧ secret.Gives (c.schema.names .secret) := by
  rw [h.checkInputs_eq, Outcome.bind_eq_ok, ← Assignment.checkNames_eq_ok_iff,
    ← Assignment.checkNames_eq_ok_iff]
  constructor
  · rintro ⟨⟨⟩, hpublics, hsecret⟩
    exact ⟨hpublics, hsecret⟩
  · rintro ⟨hpublics, hsecret⟩
    exact ⟨(), hpublics, hsecret⟩

theorem checkInputs_ne_unsatisfied (h : Compilation c modulus session calls r) {u : Unsatisfied} :
    r.checkInputs secret publics ≠ .error (.unsatisfied u) := by
  rw [h.checkInputs_eq]
  cases hpublics : publics.checkNames (c.schema.names .public) .public (c.schema.names .secret)
    .secret with
  | error e => exact fun h => Assignment.checkNames_ne_unsatisfied (hpublics.trans h)
  | ok _ => exact Assignment.checkNames_ne_unsatisfied

/-- Where the names are accepted, nothing but a violated row is reported, and elsewhere something
else is. -/
theorem reports_unsatisfied_iff (h : Compilation c modulus session calls r) :
    (∀ e, r.assign secret publics = .report e → ∃ u, e = .unsatisfied u) ↔
      r.checkInputs secret publics = .ok () := by
  rw [R1CS.assign]
  cases hcheck : r.checkInputs secret publics with
  | error e =>
    refine iff_of_false (fun hall => ?_) (fun hok => by cases hok)
    obtain ⟨u, rfl⟩ := hall e rfl
    exact h.checkInputs_ne_unsatisfied hcheck
  | ok _ =>
    refine iff_of_true (fun e he => ?_) rfl
    cases hsolve : r.solve (r.seed secret publics) with
    | ok z =>
      rw [hsolve] at he
      cases he
    | error failure =>
      rw [hsolve] at he
      cases failure with
      | reported u =>
        cases he
        exact ⟨u, rfl⟩
      | breach => cases he

/-! ## The vector of a witness -/

/-- An assignment that has a witness was accepted. -/
theorem gives_of_assign (h : Compilation c modulus session calls r)
    (assign : r.assign secret publics = .ok w) :
    publics.Gives (c.schema.names .public) ∧ secret.Gives (c.schema.names .secret) := by
  obtain ⟨⟨⟩, hcheck, -⟩ := Outcome.bind_eq_ok.1 assign
  exact h.checkInputs_eq_ok_iff.1 (Outcome.ofExcept_eq_ok.1 hcheck)

/-- **The vector of a witness** begins with one and the values of the inputs, and goes on with a
value for each hint. -/
theorem exists_values (h : Compilation c modulus session calls r)
    (assign : r.assign secret publics = .ok w) :
    ∃ internal, w.values.toList = r.inputValues secret publics ++ internal ∧
      internal.length = r.hints.size := by
  obtain ⟨ops, ⟨-, -, -, records⟩, -⟩ := h.exists_recorded
  obtain ⟨-, -, z, hz, rfl⟩ := R1CS.assign_eq_ok assign
  obtain ⟨size, hstart, -⟩ := (records.solve_eq_ok_iff (records.size_seed secret publics)).1 hz
  have hnum : r.numWires = r.firstInternal + r.hints.size := by
    rw [records.numWires, ← Array.length_toList, records.hints, length_hintsFrom]
  have hprefix : z.toList.take r.firstInternal = r.inputValues secret publics := by
    refine List.ext_getElem ?_ fun i hi hi' => ?_
    · rw [List.length_take, Array.length_toList, size, hnum, r.length_inputValues]
      omega
    · have hlt : i < r.firstInternal := by rwa [r.length_inputValues] at hi'
      have hinput := hstart i hlt
      rw [ConstraintSystem.vectorAt_seed _ _ hlt,
        listAt_of_getElem? (List.getElem?_eq_getElem hi')] at hinput
      rw [List.getElem_take, ← hinput, ← listAt_toList]
      exact (listAt_of_getElem? (List.getElem?_eq_getElem _)).symm
  refine ⟨z.toList.drop r.firstInternal, ?_, ?_⟩
  · rw [← hprefix, List.take_append_drop]
  · rw [List.length_drop, Array.length_toList, size, hnum, Nat.add_sub_cancel_left]

/-- The wire of a declared name holds the value that was given for the name. -/
theorem exists_value (h : Compilation c modulus session calls r)
    (assign : r.assign secret publics = .ok w) {e : String × Wire}
    (mem : e ∈ (c.schema.inputsOf session).wires) :
    ∃ value, (if e.2.role = .public then publics.find? e.1 else secret.find? e.1) = some value ∧
      w.values[e.2.index]? = some value := by
  obtain ⟨ops, recorded, -⟩ := h.exists_recorded
  obtain ⟨givesPublics, givesSecret⟩ := h.gives_of_assign assign
  obtain ⟨internal, hvalues, -⟩ := h.exists_values assign
  have hlt : e.2.index < (r.inputValues secret publics).length := by
    rw [r.length_inputValues]
    exact recorded.below.lt e.2 (List.mem_map_of_mem mem)
  rw [← getElem?_inputValues h.names.1 h.names.2 givesPublics givesSecret mem,
    ← Array.getElem?_toList, hvalues, List.getElem?_append_left hlt]
  exact ⟨_, List.getElem?_eq_getElem hlt, List.getElem?_eq_getElem hlt⟩

end Compilation

/-- **The layout of wires.**  Let a circuit be compiled.  An assignment passes the checks of names
exactly if the public and the secret values are for exactly the inputs that are declared so, and
exactly then nothing but a violated row is reported.  If it has a witness, then the wires hold one,
the values given for the public inputs and those given for the secret inputs, both in declaration
order, and one value for each hint; the wire that the definition gets for a declared name holds the
value that was given for it; and the public inputs alone give the public part. -/
theorem wire_layout {c : Circuit K} {modulus : Modulus} {session : Nat} {calls : List (Call K)}
    {r : R1CS K} (compilation : Compilation c modulus session calls r)
    (secret publics : Assignment K) :
    (r.checkInputs secret publics = .ok () ↔
      publics.Gives (c.schema.names .public) ∧ secret.Gives (c.schema.names .secret)) ∧
    ((∀ e, r.assign secret publics = .report e → ∃ u, e = .unsatisfied u) ↔
      publics.Gives (c.schema.names .public) ∧ secret.Gives (c.schema.names .secret)) ∧
    ∀ w, r.assign secret publics = .ok w →
      (∃ publicValues secretValues internal,
        w.values.toList = 1 :: (publicValues ++ secretValues ++ internal) ∧
        (c.schema.names .public).mapM publics.find? = some publicValues ∧
        (c.schema.names .secret).mapM secret.find? = some secretValues ∧
        internal.length = r.hints.size) ∧
      (∃ io b b',
        Build.runOn (Circuit.declare c.schema) (Builder.fresh K session) = (.ok io, b) ∧
        Build.runOn (c.define io) b = (.ok (), b') ∧
        ∀ d ∈ c.schema.inputs, ∃ wire value,
          (∀ b'' : Builder K, Build.runOn (io.get d.name) b'' = (.ok wire, b'')) ∧
          wire.role = d.role ∧
          (if d.role = .public then publics.find? d.name else secret.find? d.name) = some value ∧
          w.values[wire.index]? = some value) ∧
      r.publicWitness publics = .ok w.publicPart := by
  refine ⟨compilation.checkInputs_eq_ok_iff,
    compilation.reports_unsatisfied_iff.trans compilation.checkInputs_eq_ok_iff, fun w hw => ?_⟩
  obtain ⟨ops, recorded, -⟩ := compilation.exists_recorded
  obtain ⟨givesPublics, givesSecret⟩ := compilation.gives_of_assign hw
  refine ⟨?_, ?_, (recorded.isWitness_of_assign hw).2⟩
  · obtain ⟨internal, hvalues, hlength⟩ := compilation.exists_values hw
    rw [ConstraintSystem.inputValues, compilation.names.1, compilation.names.2] at hvalues
    exact ⟨_, _, internal, hvalues, Assignment.mapM_find? givesPublics,
      Assignment.mapM_find? givesSecret, hlength⟩
  · obtain ⟨io, b, b', hdeclare, hdefine, -⟩ := compilation.traced
    refine ⟨io, b, b', hdeclare, hdefine, fun d hd => ?_⟩
    rw [runOn_declare, Prod.mk.injEq, Except.ok.injEq] at hdeclare
    obtain ⟨rfl, -⟩ := hdeclare
    obtain ⟨wire, hmem, hrole, hget⟩ := compilation.valid.exists_get (K := K) session hd
    obtain ⟨value, hgiven, hvalue⟩ := compilation.exists_value hw hmem
    rw [hrole] at hgiven
    exact ⟨wire, value, hget, hrole, hgiven, hvalue⟩

/-- In the sample circuit, `y = 8` is on the first wire behind the one-wire and `x = 3` on the second,
and the values of the hints follow.  The two inputs are not accepted for one another. -/
theorem wire_layout_sample :
    ∃ r, Compilation Sample.circuit Sample.field.descriptor 1 Sample.calls r ∧
      (∃ w internal, r.assign (Sample.secret 3) (Sample.publics 8) = .ok w ∧
        w.values.toList = 1 :: ([8] ++ [3] ++ internal) ∧ internal.length = r.hints.size ∧
        r.publicWitness (Sample.publics 8) = .ok w.publicPart) ∧
      r.checkInputs (Sample.publics 8) (Sample.secret 3) ≠ .ok () := by
  obtain ⟨r, h⟩ := Sample.exists_compilation
  obtain ⟨ops, recorded, hcalls⟩ := h.exists_recorded
  obtain ⟨rfl, -⟩ := hcalls (successful_callsOf 1 3 Sample.operations)
  have hassign := r.assign_eq recorded.modulus (h.names.1 ▸ Sample.gives_publics 8)
    (h.names.2 ▸ Sample.gives_secret 3)
  have hsolve : r.solve (r.seed (Sample.secret 3) (Sample.publics 8)) =
      .ok #[1, 8, 3, 65, 0, 0, 65, 35, 1, 1, 0, 0, 0, 0, 9, 72] := by
    rw [recorded.solve_eq_ok_iff, Sample.inputValues_eq h, Sample.map_operation_calls]
    decide +kernel
  rw [hsolve] at hassign
  obtain ⟨-, -, hlayout⟩ := wire_layout h (Sample.secret 3) (Sample.publics 8)
  obtain ⟨hswapped, -⟩ := wire_layout h (Sample.publics 8) (Sample.secret 3)
  obtain ⟨⟨pv, sv, internal, hvalues, hpublic, hsecret, hlength⟩, -, hpart⟩ := hlayout _ hassign
  obtain rfl : [8] = pv := Option.some.inj hpublic
  obtain rfl : [3] = sv := Option.some.inj hsecret
  refine ⟨r, h, ⟨_, internal, hassign, hvalues, hlength, hpart⟩, fun hok => ?_⟩
  have hx : "x" ∈ Sample.schema.names .public := ((hswapped.1 hok).1 "x").1 List.mem_cons_self
  revert hx
  decide

end Groth16
