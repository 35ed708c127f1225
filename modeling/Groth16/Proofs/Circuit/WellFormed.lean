import Groth16.Proofs.Circuit.Execution
import Groth16.Proofs.Outcome

/-!
# Builders are well formed

The wire of a hint, the wires that it reads and the row that it names are indices into vectors.  They
are in order because of the way in which a builder grows, and this file says so of every builder that
can come about, by operations that succeed as by operations that fail.

* `Anchored`: after every recipe comes a row that mentions its wire.
* `Builder.WellFormed`: hints, wires and rows correspond.
* `Builder.Reachable`: builders that come about by allocating inputs, sealing them, and operations.
* `Builder.Reachable.invariant`: these are well formed.
* `Compilation.exists_reachable`: a compiled system is such a builder.
-/

set_option autoImplicit false

namespace Groth16

variable {K : PrimeField}

open LinearCombination (ofWire)

/-! ## Rows of recipes -/

/-- The first row after every recipe mentions its wire, where the next wire is `n`. -/
def Anchored : Nat → List (Item K) → Prop
  | _, [] => True
  | n, .wire _ :: items => (∃ c ∈ (rowsOf items).head?, c.Mentions n) ∧ Anchored (n + 1) items
  | n, .row _ :: items => Anchored n items

theorem Anchored.append {n : Nat} {xs ys : List (Item K)} (hx : Anchored n xs)
    (hy : Anchored (n + wireCount xs) ys) : Anchored n (xs ++ ys) := by
  induction xs generalizing n with
  | nil => exact hy
  | cons x xs ih =>
    cases x with
    | wire recipe =>
      obtain ⟨⟨c, hc, hmentions⟩, hxs⟩ := hx
      have hnext : n + (wireCount xs + 1) = n + 1 + wireCount xs := by omega
      rw [wireCount, hnext] at hy
      refine ⟨⟨c, ?_, hmentions⟩, ih hxs hy⟩
      show c ∈ (rowsOf (xs ++ ys)).head?
      rw [rowsOf_append]
      cases hrows : rowsOf xs with
      | nil => simp [hrows] at hc
      | cons d rows => simpa [hrows] using hc
    | row c => exact ih hx hy

theorem Constraint.mentions_a {r : Constraint K} {w : Wire} {i : Nat} (h : w ∈ r.a.wires)
    (index : w.index = i) : r.Mentions i := ⟨w, by simp [h], index⟩

theorem Constraint.mentions_b {r : Constraint K} {w : Wire} {i : Nat} (h : w ∈ r.b.wires)
    (index : w.index = i) : r.Mentions i := ⟨w, by simp [h], index⟩

theorem Constraint.mentions_c {r : Constraint K} {w : Wire} {i : Nat} (h : w ∈ r.c.wires)
    (index : w.index = i) : r.Mentions i := ⟨w, by simp [h], index⟩

/-- A wire is mentioned by one minus it. -/
theorem LinearCombination.mem_wires_one_sub {w : Wire} (h : 0 < w.index) :
    w ∈ (constant 1 - ofWire w : LinearCombination K).wires := by
  have hone : (constant 1 : LinearCombination K).terms = [⟨1, .one⟩] := by
    simp [constant, ofTerms, addTerm]
  have hadd : addTerm (⟨1, .one⟩ : Term K) [⟨-1, w⟩] = [⟨1, .one⟩, ⟨-1, w⟩] := if_pos h
  have hterms : (constant 1 - ofWire w : LinearCombination K).terms =
      (addTerm (⟨1, .one⟩ : Term K) [⟨-1, w⟩]).filter fun t => t.coeff ≠ 0 := by
    show (ofTerms ((constant 1 : LinearCombination K).terms ++ [⟨-1, w⟩])).terms = _
    rw [hone]
    rfl
  rw [wires, hterms, hadd]
  simp

theorem anchored_productItems (session n : Nat) (acc : LinearCombination K)
    (fs : List (LinearCombination K)) : Anchored n (productItems session n acc fs) := by
  induction fs generalizing n acc with
  | nil => trivial
  | cons f fs ih =>
    exact ⟨⟨_, rfl, Constraint.mentions_c (List.mem_singleton_self _) rfl⟩, ih (n + 1) _⟩

theorem anchored_booleanItems (n : Nat) (tag : Tag) (a : LinearCombination K) :
    Anchored n (booleanItems tag a) := by
  rw [booleanItems]
  split
  · trivial
  · trivial

theorem anchored_bitItems (session n i count : Nat) (a : LinearCombination K) :
    Anchored n (bitItems session a n i count) := by
  induction count generalizing n i with
  | zero => trivial
  | succ count ih =>
    exact ⟨⟨_, rfl, Constraint.mentions_a (List.mem_singleton_self _) rfl⟩, ih (n + 1) (i + 1)⟩

theorem anchored_flatMap_booleanItems (n : Nat) (tag : Tag) (as : List (LinearCombination K)) :
    Anchored n (as.flatMap (booleanItems tag)) := by
  induction as with
  | nil => trivial
  | cons a as ih =>
    rw [List.flatMap_cons]
    refine (anchored_booleanItems n tag a).append ?_
    rw [wireCount_booleanItems]
    exact ih

/-- **The first row after every recipe of an operation mentions its wire.** -/
theorem Operation.anchored_items (op : Operation K) (session n : Nat) :
    Anchored n (op.items session n) := by
  have hwire : ∀ i, Wire.internal session i ∈
      (ofWire (.internal session i) : LinearCombination K).wires := fun i => List.mem_singleton_self _
  cases op with
  | mul a b => exact anchored_productItems session n a [b]
  | mulMany as =>
    cases as with
    | nil => trivial
    | cons a as => exact anchored_productItems session n a as
  | assertEqual a b =>
    rw [items]
    split
    · trivial
    · trivial
  | inverse a =>
    rw [items]
    split
    · trivial
    · exact ⟨⟨_, rfl, Constraint.mentions_b (hwire n) rfl⟩, trivial⟩
  | div a b =>
    rw [items]
    split
    · trivial
    · exact ⟨⟨_, rfl, Constraint.mentions_b (hwire n) rfl⟩, trivial⟩
  | assertBoolean a => exact anchored_booleanItems n .boolean a
  | select bit x y =>
    refine (anchored_booleanItems n .select bit).append ?_
    rw [wireCount_booleanItems, Nat.add_zero]
    split
    · trivial
    · exact ⟨⟨_, rfl, Constraint.mentions_c (hwire n) rfl⟩, trivial⟩
  | isZero a =>
    rw [items]
    split
    · trivial
    · -- Both wires are reported with the first row, which reads `a · m = 1 - o`.
      refine ⟨⟨_, rfl, Constraint.mentions_b (hwire n) rfl⟩, ⟨_, rfl, ?_⟩, trivial⟩
      exact Constraint.mentions_c (LinearCombination.mem_wires_one_sub (Nat.succ_pos n)) rfl
  | toBinary a count => exact (anchored_bitItems session n 0 count a).append trivial
  | fromBinary as => exact anchored_flatMap_booleanItems n .boolean as
  | _ => trivial

/-! ## Hints -/

theorem output_of_hintsFrom {n m k : Nat} {items : List (Item K)} {hint : Hint K}
    (h : (hintsFrom n m items)[k]? = some hint) : hint.output = n + k := by
  induction items generalizing n m k with
  | nil => simp [hintsFrom] at h
  | cons x items ih =>
    cases x with
    | wire recipe =>
      rw [hintsFrom] at h
      cases k with
      | zero =>
        obtain rfl := Option.some.inj h
        rfl
      | succ k =>
        rw [ih h]
        omega
    | row c => exact ih h

/-- The recipes of scoped items read wires before their own. -/
theorem Scoped.operands_below {n m : Nat} {items : List (Item K)} (scope : Scoped n items) :
    ∀ hint ∈ hintsFrom n m items, ∀ a ∈ hint.recipe.operands, a.Below hint.output := by
  induction items generalizing n m with
  | nil => simp [hintsFrom]
  | cons x items ih =>
    cases x with
    | wire recipe =>
      rw [hintsFrom, List.forall_mem_cons]
      exact ⟨scope.1, ih scope.2.2⟩
    | row c => exact ih scope.2

/-- The rows of anchored items are there and mention the wires. -/
theorem Anchored.exists_row {n m : Nat} {items : List (Item K)} (anchored : Anchored n items) :
    ∀ hint ∈ hintsFrom n m items, ∃ j c, hint.row = m + j ∧ (rowsOf items)[j]? = some c ∧
      c.Mentions hint.output := by
  induction items generalizing n m with
  | nil => simp [hintsFrom]
  | cons x items ih =>
    cases x with
    | wire recipe =>
      obtain ⟨⟨c, hc, hmentions⟩, hitems⟩ := anchored
      rw [hintsFrom, List.forall_mem_cons]
      exact ⟨⟨0, c, rfl, by rwa [rowsOf, ← List.head?_eq_getElem?], hmentions⟩, ih hitems⟩
    | row d =>
      intro hint hmem
      obtain ⟨j, c, hrow, hc, hmentions⟩ := ih (m := m + 1) anchored hint hmem
      exact ⟨j + 1, c, by omega, hc, hmentions⟩

/-! ## Well-formed builders -/

/-- Hints, wires and rows correspond, where there are so many inputs. -/
structure Builder.WellFormed (inputs : Nat) (b : Builder K) : Prop where
  /-- The wires are the one-wire, the inputs and one for each hint. -/
  numWires : b.numWires = 1 + inputs + b.hints.size
  /-- The hints write the wires behind the inputs in order. -/
  outputs : ∀ k (hint : Hint K), b.hints[k]? = some hint → hint.output = 1 + inputs + k
  /-- Every hint reads wires before its own. -/
  operands : ∀ hint ∈ b.hints.toList, ∀ a ∈ hint.recipe.operands, a.Below hint.output
  /-- Every constraint mentions allocated wires only. -/
  constraints : ∀ c ∈ b.constraints.toList, c.Below b.numWires
  /-- Every hint names a constraint that mentions its wire. -/
  rows : ∀ hint ∈ b.hints.toList, ∃ c, b.constraints[hint.row]? = some c ∧ c.Mentions hint.output

/-- The hint behind some others writes the wire behind theirs. -/
theorem Builder.WellFormed.outputs_of_split {inputs : Nat} {b : Builder K} (h : b.WellFormed inputs)
    {before after : List (Hint K)} {hint : Hint K}
    (split : b.hints.toList = before ++ hint :: after) :
    hint.output = 1 + inputs + before.length ∧
      ∀ k (g : Hint K), before[k]? = some g → g.output = 1 + inputs + k := by
  have hget : ∀ k : Nat, b.hints[k]? = (before ++ hint :: after)[k]? := fun k => by
    rw [← split, Array.getElem?_toList]
  refine ⟨h.outputs _ hint ?_, fun k g hk => h.outputs k g ?_⟩
  · rw [hget, List.getElem?_append_right le_rfl, Nat.sub_self, List.getElem?_cons_zero]
  · rw [hget, List.getElem?_append_left (List.getElem?_eq_some_iff.1 hk).1, hk]

/-- Recording scoped and anchored items keeps the correspondence. -/
theorem Builder.WellFormed.record {inputs : Nat} {b : Builder K} (h : b.WellFormed inputs)
    {items : List (Item K)} (scope : Scoped b.numWires items)
    (anchored : Anchored b.numWires items) : (b.record items).WellFormed inputs where
  numWires := by
    have hsize : (b.record items).hints.size = b.hints.size + (hintsFrom _ _ items).length :=
      Array.size_append
    rw [Builder.record_numWires, hsize, length_hintsFrom, h.numWires, Nat.add_assoc]
  outputs k hint hk := by
    change (b.hints ++ (hintsFrom _ _ items).toArray)[k]? = some hint at hk
    rw [Array.getElem?_append] at hk
    split at hk
    · exact h.outputs k hint hk
    · rw [List.getElem?_toArray] at hk
      rw [output_of_hintsFrom hk, h.numWires]
      omega
  operands hint hmem := by
    change hint ∈ (b.hints ++ (hintsFrom _ _ items).toArray).toList at hmem
    rw [Array.toList_append, List.mem_append] at hmem
    rcases hmem with hmem | hmem
    · exact h.operands hint hmem
    · exact scope.operands_below hint hmem
  constraints c hmem := by
    change c ∈ (b.constraints ++ (rowsOf items).toArray).toList at hmem
    rw [Array.toList_append, List.mem_append] at hmem
    rcases hmem with hmem | hmem
    · exact (h.constraints c hmem).mono (Nat.le_add_right _ _)
    · exact scope.below c hmem
  rows hint hmem := by
    change hint ∈ (b.hints ++ (hintsFrom _ _ items).toArray).toList at hmem
    show ∃ c, (b.constraints ++ (rowsOf items).toArray)[hint.row]? = some c ∧ _
    rw [Array.toList_append, List.mem_append] at hmem
    rcases hmem with hmem | hmem
    · obtain ⟨c, hc, hmentions⟩ := h.rows hint hmem
      refine ⟨c, ?_, hmentions⟩
      rw [Array.getElem?_append_left (Array.getElem?_eq_some_iff.1 hc).1, hc]
    · obtain ⟨j, c, hrow, hc, hmentions⟩ := anchored.exists_row hint hmem
      refine ⟨c, ?_, hmentions⟩
      rw [hrow, Array.getElem?_append_right (Nat.le_add_right _ _), Nat.add_sub_cancel_left,
        List.getElem?_toArray, hc]

/-! ## Reachable builders -/

/-- The handle is there: it is the one-wire, an allocated wire, or a wire of another compilation. -/
def Builder.Handles (b : Builder K) (w : Wire) : Prop :=
  w = .one ∨ w.session = b.session ∧ w.index < b.numWires ∨
    w.role ≠ .constant ∧ w.session ≠ b.session

/-- What an operation leaves behind, whatever its outcome. -/
theorem Operation.exists_scoped_record {op : Operation K} {b b' : Builder K}
    {outcome : Outcome CompileError (Result K)} (pos : 0 < b.numWires)
    (handles : ∀ a ∈ op.operands, ∀ w ∈ a.wires, b.Handles w)
    (run : Build.runOn op.run b = (outcome, b')) :
    ∃ items, b' = b.record items ∧ Scoped b.numWires items ∧ Anchored b.numWires items := by
  rcases Operation.runOn_cases run with rfl | ⟨op', r, run', hsub⟩
  · exact ⟨[], (Builder.record_nil _).symm, trivial, trivial⟩
  · obtain ⟨-, owned, -, rfl⟩ := Operation.runOn_ok run'
    refine ⟨_, rfl, op'.scoped_items pos (fun a ha w hw => ?_) b.session,
      op'.anchored_items b.session b.numWires⟩
    -- The operation that succeeds could use its handles, so they are wires that are there.
    rcases handles a (hsub ha) w hw with rfl | ⟨-, hlt⟩ | ⟨hrole, hsession⟩
    · exact pos
    · exact hlt
    · rcases Build.owns_iff.1 (owned a ha w hw) with h | h
      · exact absurd h hrole
      · exact absurd h.1 hsession

/-- The builders of a compilation with so many inputs: inputs are allocated and then sealed, and
operations follow, each with handles that are there.  What fails may be followed by anything. -/
inductive Builder.Reachable (session : Nat) : Nat → Builder K → Prop where
  /-- Nothing has happened. -/
  | fresh : Reachable session 0 (Builder.fresh K session)
  /-- An input was allocated. -/
  | allocated {inputs : Nat} {b b' : Builder K} {role : Role} {w : Wire}
      (before : Reachable session inputs b)
      (run : Build.runOn (Build.allocate role) b = (.ok w, b')) : Reachable session (inputs + 1) b'
  /-- An input was asked for in vain. -/
  | refused {inputs : Nat} {b b' : Builder K} {role : Role} {e : Failure CompileError}
      (before : Reachable session inputs b)
      (run : Build.runOn (Build.allocate role) b = (.error e, b')) : Reachable session inputs b'
  /-- The inputs were sealed. -/
  | sealed {inputs : Nat} {b b' : Builder K} (before : Reachable session inputs b)
      (run : Build.runOn Build.sealInputs b = (.ok (), b')) : Reachable session inputs b'
  /-- An operation was called, with any outcome. -/
  | called {inputs : Nat} {b b' : Builder K} {op : Operation K}
      {outcome : Outcome CompileError (Result K)} (before : Reachable session inputs b)
      (complete : b.inputsSealed = true)
      (handles : ∀ a ∈ op.operands, ∀ w ∈ a.wires, b.Handles w)
      (run : Build.runOn op.run b = (outcome, b')) : Reachable session inputs b'

namespace Builder

/-- What a step keeps: the correspondence, and that nothing is recorded before the inputs are
complete. -/
structure Invariant (inputs : Nat) (b : Builder K) : Prop where
  /-- Hints, wires and rows correspond. -/
  wellFormed : b.WellFormed inputs
  /-- Without all inputs, there are no hints. -/
  hints : b.inputsSealed = false → b.hints = #[]

theorem WellFormed.pos {inputs : Nat} {b : Builder K} (h : b.WellFormed inputs) :
    0 < b.numWires := by
  rw [h.numWires]
  omega

theorem invariant_fresh (session : Nat) : (Builder.fresh K session).Invariant 0 where
  wellFormed := ⟨rfl, by simp [Builder.fresh], by simp [Builder.fresh], by simp [Builder.fresh],
    by simp [Builder.fresh]⟩
  hints _ := rfl

/-- Allocating an input keeps the invariant, with one input more. -/
theorem Invariant.allocate {inputs : Nat} {b : Builder K} (h : b.Invariant inputs)
    (unsealed : b.inputsSealed = false) :
    ({ b with numWires := b.numWires + 1 } : Builder K).Invariant (inputs + 1) := by
  have hhints := h.hints unsealed
  refine ⟨⟨?_, ?_, ?_, ?_, ?_⟩, h.hints⟩
  · show b.numWires + 1 = 1 + (inputs + 1) + b.hints.size
    rw [h.wellFormed.numWires]
    omega
  · simp [hhints]
  · exact h.wellFormed.operands
  · exact fun c hc => (h.wellFormed.constraints c hc).mono (Nat.le_succ _)
  · exact h.wellFormed.rows

/-- **Every reachable builder is well formed.** -/
theorem Reachable.invariant {session inputs : Nat} {b : Builder K}
    (h : Reachable session inputs b) : b.Invariant inputs := by
  induction h with
  | fresh => exact invariant_fresh session
  | allocated before run ih =>
    obtain ⟨unsealed, rfl⟩ := runOn_allocate_eq_ok run
    exact ih.allocate unsealed
  | refused before run ih =>
    obtain rfl := runOn_allocate_eq_error run
    exact ih
  | sealed before run ih =>
    cases run
    exact ⟨⟨ih.wellFormed.numWires, ih.wellFormed.outputs, ih.wellFormed.operands,
      ih.wellFormed.constraints, ih.wellFormed.rows⟩, nofun⟩
  | called before complete handles run ih =>
    obtain ⟨items, rfl, scope, anchored⟩ :=
      Operation.exists_scoped_record ih.wellFormed.pos handles run
    refine ⟨ih.wellFormed.record scope anchored, fun unsealed => ?_⟩
    rw [Builder.record_inputsSealed, complete] at unsealed
    cases unsealed

/-! ## Compiled builders -/

/-- Allocating inputs one after the other leads to a reachable builder. -/
theorem Reachable.allocateAll {session inputs : Nat} {role : Role} {names : List String}
    {b b' : Builder K} {ws : List (String × Wire)} (before : Reachable session inputs b)
    (run : Build.runOn (Circuit.allocateAll role names) b = (.ok ws, b')) :
    Reachable session (inputs + names.length) b' := by
  induction names generalizing inputs b ws with
  | nil =>
    cases run
    exact before
  | cons name names ih =>
    rw [Circuit.allocateAll, List.mapM_cons] at run
    obtain ⟨e, b₁, hone, run⟩ := Build.runOn_bind_eq_ok.1 run
    obtain ⟨es, b₂, hrest, hpure⟩ := Build.runOn_bind_eq_ok.1 run
    obtain ⟨w, b₃, hwire, hpair⟩ := Build.runOn_bind_eq_ok.1 hone
    cases hpair
    cases hpure
    have hnext := ih (before.allocated hwire) hrest
    rwa [List.length_cons, Nat.add_comm names.length, ← Nat.add_assoc]

/-- Declaring the inputs of a schema leads to a reachable builder, and completes them. -/
theorem Reachable.declare {session : Nat} {schema : Schema} {io : Inputs} {b : Builder K}
    (run : Build.runOn (Circuit.declare schema) (Builder.fresh K session) = (.ok io, b)) :
    Reachable session ((schema.names .public).length + (schema.names .secret).length) b := by
  obtain ⟨publics, b₁, hpublics, run⟩ := Build.runOn_bind_eq_ok.1 run
  obtain ⟨secrets, b₂, hsecrets, run⟩ := Build.runOn_bind_eq_ok.1 run
  obtain ⟨⟨⟩, b₃, hseal, hpure⟩ := Build.runOn_bind_eq_ok.1 run
  cases hpure
  have hpublic := Reachable.fresh.allocateAll hpublics
  rw [Nat.zero_add] at hpublic
  exact (hpublic.allocateAll hsecrets).sealed hseal

end Builder

theorem Wire.HandedOut.handles {known : List Wire} {b : Builder K} {w : Wire}
    (h : w.HandedOut known b.session) (knownTo : KnownTo b known) : b.Handles w := by
  rcases h with h | h | h
  · exact .inl h
  · exact (knownTo w h).imp_right .inl
  · exact .inr (.inr h)

theorem KnownTo.record {known : List Wire} {b : Builder K} (h : KnownTo b known)
    (items : List (Item K)) : KnownTo (b.record items) known := fun w hw =>
  (h w hw).imp_right fun h => ⟨h.1, Nat.lt_of_lt_of_le h.2 (Nat.le_add_right _ _)⟩

/-- What an operation gives back is known after it. -/
theorem KnownTo.result {known : List Wire} {b b' : Builder K} {op : Operation K} {r : Result K}
    (h : KnownTo b known)
    (handedOut : ∀ a ∈ op.operands, ∀ w ∈ a.wires, w.HandedOut known b.session)
    (run : Build.runOn op.run b = (.ok r, b')) : KnownTo b' (known ++ r.mentioned) := by
  obtain ⟨-, owned, rfl, rfl⟩ := Operation.runOn_ok run
  refine List.forall_mem_append.2 ⟨h.record _, ?_⟩
  refine Operation.result_within (.inl rfl) (fun a ha w hw => ?_) fun i _ hi _ => .inr ⟨rfl, hi⟩
  rcases (handedOut a ha w hw).handles h with rfl | hin | ⟨hrole, hsession⟩
  · exact .inl rfl
  · exact .inr ⟨hin.1, Nat.lt_of_lt_of_le hin.2 (Nat.le_add_right _ _)⟩
  · rcases Build.owns_iff.1 (owned a ha w hw) with howned | howned
    · exact absurd howned hrole
    · exact absurd howned.1 hsession

/-- **What a definition leaves behind is reachable.** -/
theorem Builder.Reachable.trace {session inputs : Nat} {known : List Wire} {b b' : Builder K}
    {calls : List (Call K)} (h : Trace known b calls b') (before : Reachable session inputs b)
    (complete : b.inputsSealed = true) (knownTo : KnownTo b known) :
    Reachable session inputs b' := by
  induction h with
  | done known b => exact before
  | @call known b b₁ b' c calls handedOut run rest ih =>
    have handles : ∀ a ∈ c.operation.operands, ∀ w ∈ a.wires, b.Handles w :=
      fun a ha w hw => (handedOut a ha w hw).handles knownTo
    obtain ⟨items, rfl, -, -⟩ :=
      Operation.exists_scoped_record before.invariant.wellFormed.pos handles run
    refine ih (before.called complete handles run) complete ?_
    obtain ⟨op, outcome⟩ := c
    cases outcome with
    | ok r => exact knownTo.result handedOut run
    | error e =>
      have hnone : known ++ Call.mentioned ⟨op, .error e⟩ = known := List.append_nil known
      rw [hnone]
      exact knownTo.record items
  | refused run rest ih =>
    obtain rfl := runOn_allocate_eq_error run
    exact ih (before.refused run) complete knownTo

theorem KnownTo.inputs (schema : Schema) (b : Builder K)
    (numWires : b.numWires = 1 + (schema.names .public).length + (schema.names .secret).length) :
    KnownTo b (Compilation.known schema b.session) := by
  intro w hw
  have hlt := (Compilation.known_below schema b.session).lt w hw
  refine .inr ⟨?_, by rwa [numWires]⟩
  obtain ⟨e, he, rfl⟩ := List.mem_map.1 hw
  rcases List.mem_append.1 he with he | he
  · obtain ⟨k, -, hk⟩ := exists_of_mem_inputWires he
    rw [hk]
  · obtain ⟨k, -, hk⟩ := exists_of_mem_inputWires he
    rw [hk]

/-- **A compiled system is a reachable builder.** -/
theorem Compilation.exists_reachable {c : Circuit K} {modulus : Modulus} {session : Nat}
    {calls : List (Call K)} {r : R1CS K} (h : Compilation c modulus session calls r) :
    ∃ b, Builder.Reachable session (r.numPublic + r.numSecret) b ∧
      r.constraints = b.constraints ∧ r.numWires = b.numWires ∧ r.hints = b.hints := by
  obtain ⟨b, rfl, htrace⟩ := h.exists_trace
  have hinputs := Builder.Reachable.declare (runOn_declare (K := K) c.schema session)
  exact ⟨b, hinputs.trace htrace rfl (KnownTo.inputs c.schema _ rfl), rfl, rfl, rfl⟩

end Groth16
