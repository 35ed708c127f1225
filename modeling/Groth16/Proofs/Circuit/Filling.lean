import Groth16.Proofs.Circuit.WellFormed
import Groth16.Proofs.Circuit.Witnesses

/-!
# Filling the internal wires

Hints are replayed without looking: nothing checks that a hint reads wires that have been set, or that
it writes a wire that has not.  A compiled system comes from a well-formed builder, so this is so of
each of its hints when it is replayed, and the vector that is assigned holds at every internal wire what
the one hint of this wire came to.

* `ConstraintSystem.Fills`: what has to be so when a hint is replayed.
* `ConstraintSystem.replayHint_eq_ok_iff`: it puts the value of its recipe at its wire.
* `ConstraintSystem.replay_frame`: a replay changes no wire that its hints do not write.
* `ConstraintSystem.Stored`: a wire holds the value that its hint came to.
* `Compilation.output_ne`: no two hints write the same wire.
* `builder_well_formed`: all this of every compiled system, and the form of every builder.
-/

set_option autoImplicit false

namespace Groth16

variable {K : PrimeField}

open LinearCombination (ofWire)

namespace ConstraintSystem

variable {s : ConstraintSystem K} {z y : Array (Fp K)} {hint : Hint K}

/-! ## One hint -/

/-- What has to be so when a hint is replayed on a vector, behind the hints `before`. -/
structure Fills (s : ConstraintSystem K) (before : List (Hint K)) (hint : Hint K)
    (z : Array (Fp K)) : Prop where
  /-- All wires that it reads are in the vector. -/
  reads : hint.recipe.readable z = true
  /-- The wire that it writes is in the vector. -/
  writes : hint.output < z.size
  /-- The row that it names is there. -/
  row : hint.row < s.constraints.size
  /-- The wires that it reads have been set: as the one-wire, as inputs, or by hints before it. -/
  set : ∀ a ∈ hint.recipe.operands, ∀ w ∈ a.wires,
    w.index < s.firstInternal ∨ ∃ g ∈ before, g.output = w.index
  /-- The wire that it writes is not the one-wire and not an input. -/
  internal : s.firstInternal ≤ hint.output
  /-- No hint before it wrote the wire. -/
  fresh : ∀ g ∈ before, g.output ≠ hint.output

/-- A hint puts the value of its recipe at its wire. -/
theorem replayHint_eq_ok_iff : s.replayHint z hint = .ok y ↔
    hint.recipe.readable z = true ∧ hint.output < z.size ∧
      ∃ x, hint.recipe.solve? z = some x ∧ y = z.setIfInBounds hint.output x := by
  rw [replayHint]
  cases hreads : hint.recipe.readable z with
  | false =>
    refine iff_of_false (fun h => ?_) fun h => Bool.false_ne_true h.1
    cases h
  | true =>
    cases hsolve : hint.recipe.solve? z with
    | none =>
      refine iff_of_false (fun h => ?_) fun h => ?_
      · change s.reportOf hint >>= (fun u => Outcome.report u) = _ at h
        obtain ⟨u, -, hu⟩ := Outcome.bind_eq_ok.1 h
        cases hu
      · obtain ⟨-, -, x, hx, -⟩ := h
        cases hx
    | some x =>
      change (if hint.output < z.size then pure (z.setIfInBounds hint.output x)
        else Outcome.breach) = _ ↔ _
      split
      · next hwrites =>
        constructor
        · intro h
          exact ⟨rfl, hwrites, x, rfl, (Except.ok.inj h).symm⟩
        · rintro ⟨-, -, x', hx, rfl⟩
          obtain rfl := Option.some.inj hx
          rfl
      · next hwrites =>
        refine iff_of_false (fun h => ?_) fun h => hwrites h.2.1
        cases h

theorem Fills.replayHint_eq_ok_iff {before : List (Hint K)} (fills : s.Fills before hint z) :
    s.replayHint z hint = .ok y ↔
      ∃ x, hint.recipe.solve? z = some x ∧ y = z.setIfInBounds hint.output x := by
  rw [ConstraintSystem.replayHint_eq_ok_iff, and_iff_right fills.reads, and_iff_right fills.writes]

/-! ## Hints in order -/

theorem replay_append (s : ConstraintSystem K) (z : Array (Fp K)) (before after : List (Hint K)) :
    s.replay z (before ++ after) = s.replay z before >>= fun y => s.replay y after := by
  induction before generalizing z with
  | nil => rfl
  | cons hint before ih =>
    rw [List.cons_append, replay, replay]
    cases s.replayHint z hint with
    | error e => rfl
    | ok y => exact ih y

/-- A replay keeps the length of the vector and all wires that it does not write. -/
theorem replay_frame {hints : List (Hint K)} (h : s.replay z hints = .ok y) :
    y.size = z.size ∧ ∀ i, (∀ g ∈ hints, g.output ≠ i) → y[i]? = z[i]? := by
  induction hints generalizing z with
  | nil =>
    cases h
    exact ⟨rfl, fun _ _ => rfl⟩
  | cons hint hints ih =>
    obtain ⟨z', hhint, hrest⟩ := Outcome.bind_eq_ok.1 h
    obtain ⟨-, -, x, -, rfl⟩ := replayHint_eq_ok_iff.1 hhint
    obtain ⟨hsize, hsame⟩ := ih hrest
    refine ⟨by rw [hsize, Array.size_setIfInBounds], fun i hi => ?_⟩
    rw [List.forall_mem_cons] at hi
    rw [hsame i hi.2, Array.getElem?_setIfInBounds, if_neg hi.1]

/-- The wire of a hint holds in `y` the value that the recipe of the hint had when it was replayed,
in a replay that starts with the vector `start` and the hints `before`. -/
def Stored (s : ConstraintSystem K) (start : Array (Fp K)) (before : List (Hint K)) (hint : Hint K)
    (y : Array (Fp K)) : Prop :=
  ∃ z x, s.replay start before = .ok z ∧ hint.recipe.solve? z = some x ∧ y[hint.output]? = some x

/-- The value of a hint is stored, and hints behind it that write other wires keep it. -/
theorem stored_of_replay {start : Array (Fp K)} {before after : List (Hint K)}
    (h : s.replay start (before ++ hint :: after) = .ok y)
    (others : ∀ g ∈ after, g.output ≠ hint.output) : s.Stored start before hint y := by
  rw [replay_append] at h
  obtain ⟨z, hbefore, h⟩ := Outcome.bind_eq_ok.1 h
  obtain ⟨z', hhint, hafter⟩ := Outcome.bind_eq_ok.1 h
  obtain ⟨-, hwrites, x, hx, rfl⟩ := replayHint_eq_ok_iff.1 hhint
  refine ⟨z, x, hbefore, hx, ?_⟩
  rw [(replay_frame hafter).2 _ others, Array.getElem?_setIfInBounds_self_of_lt hwrites]

/-- Solving is replaying all hints, and checking. -/
theorem replay_of_solve (h : s.solve z = .ok y) : s.replay z s.hints.toList = .ok y := by
  obtain ⟨y', hreplay, h⟩ := Outcome.bind_eq_ok.1 h
  obtain ⟨⟨⟩, -, h⟩ := Outcome.bind_eq_ok.1 h
  rw [hreplay, Except.ok.inj h]

/-- The hints of a well-formed builder can be replayed one after the other. -/
theorem fills_of_wellFormed {b : Builder K} (wellFormed : b.WellFormed (s.numPublic + s.numSecret))
    (constraints : s.constraints = b.constraints) (numWires : s.numWires = b.numWires)
    (hints : s.hints = b.hints) {before after : List (Hint K)}
    (split : s.hints.toList = before ++ hint :: after) (size : z.size = s.numWires) :
    s.Fills before hint z := by
  have hfirst : s.firstInternal = 1 + (s.numPublic + s.numSecret) := Nat.add_comm _ _
  rw [hints] at split
  obtain ⟨houtput, hbefore⟩ := wellFormed.outputs_of_split split
  rw [← hfirst] at houtput hbefore
  have hmem : hint ∈ b.hints.toList := by simp [split]
  have hwrites : hint.output < z.size := by
    have hlength := congrArg List.length split
    rw [Array.length_toList, List.length_append, List.length_cons] at hlength
    rw [size, numWires, wellFormed.numWires, houtput, hfirst]
    omega
  obtain ⟨c, hrow, -⟩ := wellFormed.rows hint hmem
  refine ⟨Recipe.readable_eq_true fun a ha => ?_, hwrites, ?_, fun a ha w hw => ?_, ?_, ?_⟩
  · exact (wellFormed.operands hint hmem a ha).mono hwrites.le
  · rw [constraints]
    exact (Array.getElem?_eq_some_iff.1 hrow).1
  · -- A wire before that of the hint is the one-wire, an input, or that of the hint at its place.
    have hlt := wellFormed.operands hint hmem a ha w hw
    by_cases hinput : w.index < s.firstInternal
    · exact .inl hinput
    · have hplace : w.index - s.firstInternal < before.length := by omega
      refine .inr ⟨before[w.index - s.firstInternal], List.getElem_mem _, ?_⟩
      rw [hbefore _ _ (List.getElem?_eq_getElem hplace)]
      omega
  · rw [houtput]
    exact Nat.le_add_right _ _
  · intro g hg
    obtain ⟨k, hk⟩ := List.mem_iff_getElem?.1 hg
    have hlt := (List.getElem?_eq_some_iff.1 hk).1
    rw [hbefore k g hk, houtput]
    omega

end ConstraintSystem

/-! ## Compiled systems -/

namespace Compilation

variable {c : Circuit K} {modulus : Modulus} {session : Nat} {calls : List (Call K)} {r : R1CS K}
  {before after : List (Hint K)} {hint : Hint K} {z : Array (Fp K)} {secret publics : Assignment K}

/-- Assigning never breaks a precondition. -/
theorem assign_ne_breach (h : Compilation c modulus session calls r)
    (secret publics : Assignment K) : r.assign secret publics ≠ .breach := by
  intro hbreach
  obtain ⟨ops, recorded, -⟩ := h.exists_recorded
  rw [R1CS.assign] at hbreach
  rcases hcheck : r.checkInputs secret publics with e | ⟨⟩
  · rw [hcheck] at hbreach
    cases hbreach
  · rcases hsolve : r.solve (r.seed secret publics) with e | z
    · obtain ⟨u, hu⟩ := recorded.records.solve_eq_report
        (recorded.records.size_seed secret publics) fun y hy => by
          rw [hsolve] at hy
          cases hy
      rw [hcheck, hsolve, Except.error.inj (hsolve.symm.trans hu)] at hbreach
      cases hbreach
    · rw [hcheck, hsolve] at hbreach
      cases hbreach

/-- After any number of hints, the next one can be replayed. -/
theorem fills (h : Compilation c modulus session calls r)
    (split : r.hints.toList = before ++ hint :: after) (size : z.size = r.numWires) :
    r.Fills before hint z := by
  obtain ⟨b, hreachable, hconstraints, hnum, hhints⟩ := h.exists_reachable
  exact ConstraintSystem.fills_of_wellFormed hreachable.invariant.wellFormed hconstraints hnum
    hhints split size

/-- The hint at a place writes the internal wire at that place. -/
theorem output_eq (h : Compilation c modulus session calls r) {k : Nat}
    (get : r.hints.toList[k]? = some hint) : hint.output = r.firstInternal + k := by
  obtain ⟨b, hreachable, -, -, hhints⟩ := h.exists_reachable
  rw [hhints, Array.getElem?_toList] at get
  rw [hreachable.invariant.wellFormed.outputs k hint get, ConstraintSystem.firstInternal]
  omega

/-- No two hints write the same wire. -/
theorem output_ne (h : Compilation c modulus session calls r)
    (split : r.hints.toList = before ++ hint :: after) :
    ∀ g ∈ before ++ after, g.output ≠ hint.output := by
  have hhint : hint.output = r.firstInternal + before.length :=
    h.output_eq (by rw [split, List.getElem?_append_right le_rfl, Nat.sub_self]; rfl)
  intro g hg
  rcases List.mem_append.1 hg with hg | hg
  · obtain ⟨k, hk⟩ := List.mem_iff_getElem?.1 hg
    have hlt := (List.getElem?_eq_some_iff.1 hk).1
    rw [h.output_eq (by rw [split, List.getElem?_append_left hlt, hk]), hhint]
    omega
  · obtain ⟨k, hk⟩ := List.mem_iff_getElem?.1 hg
    have hplace : before.length + 1 + k - before.length = k + 1 := by omega
    rw [h.output_eq (k := before.length + 1 + k) (by
      rw [split, List.getElem?_append_right (by omega), hplace, List.getElem?_cons_succ, hk]), hhint]
    omega

/-- Every internal wire is written by one hint. -/
theorem exists_hint (h : Compilation c modulus session calls r) {i : Nat}
    (internal : r.firstInternal ≤ i) (lt : i < r.numWires) :
    ∃ before hint after, r.hints.toList = before ++ hint :: after ∧ hint.output = i := by
  obtain ⟨b, hreachable, -, hnum, hhints⟩ := h.exists_reachable
  have hfirst : r.firstInternal = 1 + (r.numPublic + r.numSecret) := Nat.add_comm _ _
  have hplace : i - r.firstInternal < r.hints.toList.length := by
    rw [hnum, hreachable.invariant.wellFormed.numWires] at lt
    rw [hhints, Array.length_toList]
    omega
  refine ⟨r.hints.toList.take (i - r.firstInternal), r.hints.toList[i - r.firstInternal],
    r.hints.toList.drop (i - r.firstInternal + 1), ?_, ?_⟩
  · rw [← List.drop_eq_getElem_cons hplace, List.take_append_drop]
  · rw [h.output_eq (List.getElem?_eq_getElem hplace)]
    omega

/-- After any number of hints the vector is as long as before, and the one-wire and the inputs hold
what they held. -/
theorem replay_inputs (h : Compilation c modulus session calls r)
    (split : r.hints.toList = before ++ after)
    (replay : r.replay (r.seed secret publics) before = .ok z) :
    z.size = r.numWires ∧ ∀ i < r.firstInternal, z[i]? = (r.seed secret publics)[i]? := by
  obtain ⟨ops, recorded, -⟩ := h.exists_recorded
  obtain ⟨hsize, hsame⟩ := ConstraintSystem.replay_frame replay
  rw [recorded.records.size_seed] at hsize
  refine ⟨hsize, fun i hi => hsame i fun g hg => ?_⟩
  obtain ⟨k, hk⟩ := List.mem_iff_getElem?.1 hg
  have hlt := (List.getElem?_eq_some_iff.1 hk).1
  rw [h.output_eq (by rw [split, List.getElem?_append_left hlt, hk])]
  omega

/-- After any number of hints, each of them has left the value of its recipe at its wire. -/
theorem stored (h : Compilation c modulus session calls r) {front back : List (Hint K)}
    (split : r.hints.toList = front ++ hint :: back ++ after)
    (replay : r.replay (r.seed secret publics) (front ++ hint :: back) = .ok z) :
    r.Stored (r.seed secret publics) front hint z := by
  rw [List.append_assoc, List.cons_append] at split
  refine ConstraintSystem.stored_of_replay replay fun g hg => h.output_ne split g ?_
  exact List.mem_append_right _ (List.mem_append_left _ hg)

end Compilation

/-- **Builders are well formed, and so the hints of compiled systems can be replayed.**  Every
reachable builder is well formed.

When a compiled system is assigned, no precondition is broken, whatever the inputs.  After any number
of hints the one-wire and the inputs hold what they held, and the wire of each hint so far holds what
the recipe of the hint came to when its turn was.  The next hint reads wires that have been set and
writes an internal wire that has not, and what it does is to put the value of its recipe there.  What
is assigned is the vector after all hints, and of these exactly one writes each internal wire. -/
theorem builder_well_formed :
    (∀ {session inputs : Nat} {b : Builder K}, Builder.Reachable session inputs b →
      b.WellFormed inputs) ∧
    ∀ {c : Circuit K} {modulus : Modulus} {session : Nat} {calls : List (Call K)} {r : R1CS K},
      Compilation c modulus session calls r → ∀ secret publics : Assignment K,
        r.assign secret publics ≠ .breach ∧
        (∀ before after z, r.hints.toList = before ++ after →
          r.replay (r.seed secret publics) before = .ok z →
            (∀ i < r.firstInternal, z[i]? = (r.seed secret publics)[i]?) ∧
            (∀ front hint back, before = front ++ hint :: back →
              r.Stored (r.seed secret publics) front hint z) ∧
            ∀ hint ∈ after.head?, r.Fills before hint z ∧
              ∀ y, r.replayHint z hint = .ok y ↔
                ∃ x, hint.recipe.solve? z = some x ∧ y = z.setIfInBounds hint.output x) ∧
        (∀ w, r.assign secret publics = .ok w →
          r.replay (r.seed secret publics) r.hints.toList = .ok w.values) ∧
        ∀ i, r.firstInternal ≤ i → i < r.numWires →
          ∃ before hint after, r.hints.toList = before ++ hint :: after ∧ hint.output = i ∧
            ∀ g ∈ before ++ after, g.output ≠ i := by
  refine ⟨fun h => h.invariant.wellFormed, fun {_ _ _ _ r} h secret publics =>
    ⟨h.assign_ne_breach secret publics, ?_, fun w assigned => ?_, fun i internal lt => ?_⟩⟩
  · intro before after z hsplit hreplay
    obtain ⟨hsize, hinputs⟩ := h.replay_inputs hsplit hreplay
    refine ⟨hinputs, fun front hint back hbefore => ?_, fun hint hmem => ?_⟩
    · subst hbefore
      exact h.stored hsplit hreplay
    · cases after with
      | nil => cases hmem
      | cons hint' after =>
        obtain rfl : hint' = hint := Option.some.inj hmem
        have fills := h.fills hsplit hsize
        exact ⟨fills, fun y => fills.replayHint_eq_ok_iff⟩
  · obtain ⟨-, -, z, hsolve, rfl⟩ := R1CS.assign_eq_ok assigned
    exact ConstraintSystem.replay_of_solve hsolve
  · obtain ⟨before, hint, after, hsplit, rfl⟩ := h.exists_hint internal lt
    exact ⟨before, hint, after, hsplit, rfl, h.output_ne hsplit⟩

namespace Sample

/-- A builder with two inputs, after the square of the first. -/
theorem exists_reachable : ∃ b : Builder field, Builder.Reachable 1 2 b ∧ b.hints.size = 1 := by
  have hinputs := Builder.Reachable.declare (runOn_declare (K := field) schema 1)
  let y : LinearCombination field := ofWire ⟨1, .public, 1⟩
  have run : Build.runOn (Operation.mul y y).run (⟨1, 3, true, #[], #[]⟩ : Builder field) = _ := rfl
  refine ⟨_, hinputs.called rfl (fun a ha w hw => ?_) run, rfl⟩
  simp only [Operation.operands, List.mem_cons, List.not_mem_nil, or_false, or_self] at ha
  subst ha
  obtain rfl := List.mem_singleton.1 hw
  exact .inr (.inl ⟨rfl, by decide⟩)

end Sample

/-- The first hint of the sample circuit is replayed on the vector of the inputs, and the last wire
holds what the recipe of its hint came to. -/
theorem builder_well_formed_sample :
    (∃ b : Builder Sample.field, Builder.Reachable 1 2 b ∧ b.hints.size = 1 ∧ b.WellFormed 2) ∧
    ∃ r, Compilation Sample.circuit Sample.field.descriptor 1 Sample.calls r ∧
      r.assign (Sample.secret 3) (Sample.publics 8) ≠ .breach ∧
      (∃ hint, r.hints.toList.head? = some hint ∧
        r.Fills [] hint (r.seed (Sample.secret 3) (Sample.publics 8))) ∧
      ∃ w, r.assign (Sample.secret 3) (Sample.publics 8) = .ok w ∧
        ∃ (before : List (Hint Sample.field)) (hint : Hint Sample.field)
            (after : List (Hint Sample.field)) (z : Array (Fp Sample.field)),
          r.hints.toList = before ++ hint :: after ∧ hint.output = 15 ∧
          r.replay (r.seed (Sample.secret 3) (Sample.publics 8)) before = .ok z ∧
          hint.recipe.solve? z = some 72 ∧ w.values[15]? = some 72 := by
  obtain ⟨wellFormed, replays⟩ := builder_well_formed (K := Sample.field)
  obtain ⟨b, hreachable, hsize⟩ := Sample.exists_reachable
  obtain ⟨r, h⟩ := Sample.exists_compilation
  obtain ⟨hassign, hreplay, hfilled, hwritten⟩ := replays h (Sample.secret 3) (Sample.publics 8)
  obtain ⟨ops, recorded, hcalls⟩ := h.exists_recorded
  obtain ⟨rfl, -⟩ := hcalls (successful_callsOf 1 3 Sample.operations)
  have hfirst := Sample.firstInternal_eq h
  have hhints := recorded.records.hints
  have hnum := recorded.records.numWires
  rw [hfirst] at hhints hnum
  refine ⟨⟨b, hreachable, hsize, wellFormed hreachable⟩, r, h, hassign, ?_, _,
    Sample.assign_eq h, ?_⟩
  · obtain ⟨hint, hhead⟩ : ∃ hint, r.hints.toList.head? = some hint := by
      rw [hhints]
      exact ⟨_, rfl⟩
    exact ⟨hint, hhead, ((hreplay [] _ _ rfl rfl).2.2 hint hhead).1⟩
  · obtain ⟨before, hint, after, hsplit, houtput, -⟩ := hwritten 15 (by rw [hfirst]; decide)
      (by rw [hnum]; decide +kernel)
    have hall := (hreplay _ [] _ (List.append_nil _).symm (hfilled _ (Sample.assign_eq h))).2.1
    obtain ⟨z, x, hz, hx, hvalue⟩ := hall before hint after hsplit
    rw [houtput] at hvalue
    obtain rfl : 72 = x := Option.some.inj hvalue
    exact ⟨before, hint, after, z, hsplit, houtput, hz, hx, rfl⟩

end Groth16
