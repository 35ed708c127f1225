import Groth16.Proofs.Circuit.Recording
import Groth16.Proofs.Field.Bits

/-!
# What each operation records

This file says exactly what each operation of the builder appends and what it gives back, so that
no later proof has to look into the monad.

* `Operation.items` and `Operation.result`: what an operation appends and what it gives back, as
  functions of the number of the compilation and of the number of wires so far.
* `Operation.Accepted`: the conditions on constants that an operation checks at once.
* `Build.Checks`: a computation checks operands before it does anything else.
* `Operation.Atomic`: an operation checks its operands and then its constants, and records
  everything or nothing.  `Operation.atomic_or_stepwise`: all operations do so, but the two that
  go through a list of operands.
* `Operation.runOn_ok`: an operation that succeeds was accepted, may use its operands, gives back
  `result` and appends `items`.
* `Operation.runOn_error`: an operation that fails leaves the builder as it was, or as another
  operation on some of its operands would that succeeds.  So whatever a circuit does with failures,
  the builder it ends with is one that successful operations alone can reach.
-/

set_option autoImplicit false

namespace Groth16

variable {K : PrimeField}

/-- The combination passes for a constant. -/
def LinearCombination.isConstant (a : LinearCombination K) : Bool := a.asConstant?.isSome

theorem LinearCombination.isConstant_of_eq_some {a : LinearCombination K} {k : Fp K}
    (h : a.asConstant? = some k) : a.isConstant = true := by
  rw [isConstant, h]
  rfl

theorem LinearCombination.isConstant_of_eq_none {a : LinearCombination K}
    (h : a.asConstant? = none) : a.isConstant = false := by
  rw [isConstant, h]
  rfl

/-- If the combination passes for a constant, the constant is as `p` says. -/
def LinearCombination.IfConstant (p : Fp K → Prop) (a : LinearCombination K) : Prop :=
  ∀ k, a.asConstant? = some k → p k

theorem LinearCombination.exists_of_not_ifConstant {p : Fp K → Prop} {a : LinearCombination K}
    (h : ¬ a.IfConstant p) : ∃ k, a.asConstant? = some k ∧ ¬ p k := by
  simpa [IfConstant] using h

instance (p : Fp K → Prop) [DecidablePred p] (a : LinearCombination K) :
    Decidable (a.IfConstant p) :=
  match h : a.asConstant? with
  | some k => decidable_of_iff (p k) (by simp [LinearCombination.IfConstant, h])
  | none => isTrue (by simp [LinearCombination.IfConstant, h])

open LinearCombination (ofWire)

/-! ## What is appended -/

/-- A chain of products, each on the next wire. -/
def productItems (session : Nat) : Nat → LinearCombination K → List (LinearCombination K) →
    List (Item K)
  | _, _, [] => []
  | n, acc, f :: fs =>
    let v : LinearCombination K := ofWire (.internal session n)
    .wire (.product acc f) :: .row ⟨acc, f, v, .mul⟩ :: productItems session (n + 1) v fs

@[simp] theorem wireCount_productItems (session n : Nat) (acc : LinearCombination K)
    (fs : List (LinearCombination K)) :
    wireCount (productItems session n acc fs) = fs.length := by
  induction fs generalizing n acc with
  | nil => rfl
  | cons f fs ih => rw [productItems, wireCount, wireCount, ih, List.length_cons]

/-- The value at the end of a chain of products. -/
def productResult (session : Nat) : Nat → LinearCombination K → List (LinearCombination K) →
    LinearCombination K
  | _, acc, [] => acc
  | n, _, _ :: fs => productResult session (n + 1) (ofWire (.internal session n)) fs

/-- The row of an asserted bit; a constant needs none. -/
def booleanItems (tag : Tag) (a : LinearCombination K) : List (Item K) :=
  if a.isConstant then [] else [.row ⟨a, .constant 1 - a, 0, tag⟩]

@[simp] theorem wireCount_booleanItems (tag : Tag) (a : LinearCombination K) :
    wireCount (booleanItems tag a) = 0 := by
  rw [booleanItems]
  split
  · rfl
  · rfl

@[simp] theorem wireCount_flatMap_booleanItems (tag : Tag) (as : List (LinearCombination K)) :
    wireCount (as.flatMap (booleanItems tag)) = 0 := by
  induction as with
  | nil => rfl
  | cons a as ih => rw [List.flatMap_cons, wireCount_append, wireCount_booleanItems, ih]

/-- Wires for the bits of a value from bit `i` on, each with the row of an asserted bit. -/
def bitItems (session : Nat) (a : LinearCombination K) : Nat → Nat → Nat → List (Item K)
  | _, _, 0 => []
  | n, i, count + 1 =>
    let b : LinearCombination K := ofWire (.internal session n)
    .wire (.bit a i) :: .row ⟨b, .constant 1 - b, 0, .binary⟩ ::
      bitItems session a (n + 1) (i + 1) count

@[simp] theorem wireCount_bitItems (session n i count : Nat) (a : LinearCombination K) :
    wireCount (bitItems session a n i count) = count := by
  induction count generalizing n i with
  | zero => rfl
  | succ count ih => rw [bitItems, wireCount, wireCount, ih]

/-- Internal wires one after the other. -/
def internalWires (session : Nat) : Nat → Nat → List Wire
  | _, 0 => []
  | n, count + 1 => .internal session n :: internalWires session (n + 1) count

/-- The number with the given bits from the power `weight` of two on, added to `acc`. -/
def weightedSum (acc : LinearCombination K) (weight : Fp K) :
    List (LinearCombination K) → LinearCombination K
  | [] => acc
  | b :: bs => weightedSum (acc + b.scale weight) (weight + weight) bs

namespace Operation

/-- The combinations that an operation reads. -/
def operands : Operation K → List (LinearCombination K)
  | constant _ => []
  | add a b | sub a b | mul a b | assertEqual a b | div a b => [a, b]
  | neg a | scale a _ | inverse a | assertBoolean a | isZero a | toBinary a _ => [a]
  | select bit x y => [bit, x, y]
  | sum as | mulMany as | fromBinary as => as

/-- What the operation checks of its constant operands and of its other arguments before it records
anything. -/
def Accepted : Operation K → Prop
  | assertEqual a b => ∀ x y, a.asConstant? = some x → b.asConstant? = some y → x = y
  | inverse a | div _ a => a.IfConstant (· ≠ 0)
  | assertBoolean a | select a _ _ => a.IfConstant Fp.IsBit
  | toBinary _ n => 0 < n ∧ n ≤ Build.maxBits K
  | fromBinary as => ∀ a ∈ as, a.IfConstant Fp.IsBit
  | mulMany as => as ≠ []
  | _ => True

instance : ∀ op : Operation K, Decidable op.Accepted
  | assertEqual a b =>
    decidable_of_iff (a.IfConstant fun x => b.IfConstant fun y => x = y) <| by
      simp only [Accepted, LinearCombination.IfConstant]
      exact ⟨fun h x y hx hy => h x hx y hy, fun h x hx y hy => h x y hx hy⟩
  | inverse a | div _ a => inferInstanceAs (Decidable (a.IfConstant (· ≠ 0)))
  | assertBoolean a | select a _ _ => inferInstanceAs (Decidable (a.IfConstant Fp.IsBit))
  | toBinary _ n => inferInstanceAs (Decidable (0 < n ∧ n ≤ Build.maxBits K))
  | fromBinary as => inferInstanceAs (Decidable (∀ a ∈ as, a.IfConstant Fp.IsBit))
  | mulMany as => inferInstanceAs (Decidable (as ≠ []))
  | constant _ | add _ _ | sub _ _ | neg _ | scale _ _ | sum _ | mul _ _ | isZero _ =>
    inferInstanceAs (Decidable True)

/-- What the operation appends, where the next wire is `n`. -/
def items (session n : Nat) : Operation K → List (Item K)
  | mul a b => productItems session n a [b]
  | mulMany (a :: as) => productItems session n a as
  | assertEqual a b =>
    if a.isConstant && b.isConstant then [] else [.row ⟨a, Build.one, b, .assertEqual⟩]
  | inverse a =>
    let v := ofWire (.internal session n)
    if a.isConstant then [] else [.wire (.inverse a), .row ⟨a, v, Build.one, .inverse⟩]
  | div a b =>
    let q := ofWire (.internal session n)
    if b.isConstant then [] else [.wire (.quotient a b), .row ⟨b, q, a, .division⟩]
  | assertBoolean a => booleanItems .boolean a
  | select bit x y =>
    let t := ofWire (.internal session n)
    booleanItems .select bit ++
      if bit.isConstant || (x - y).isEmpty then []
      else [.wire (.product bit (x - y)), .row ⟨bit, x - y, t, .select⟩]
  | isZero a =>
    let m := ofWire (.internal session n)
    let out := ofWire (.internal session (n + 1))
    if a.isConstant then []
    else [.wire (.inverseOrZero a), .wire (.isZero a), .row ⟨a, m, .constant 1 - out, .isZero⟩,
      .row ⟨a, out, 0, .isZero⟩]
  | toBinary a count =>
    bitItems session a n 0 count ++
      [.row ⟨.ofTerms (Build.weighted 1 (internalWires session n count)), Build.one, a, .binary⟩]
  | fromBinary as => as.flatMap (booleanItems .boolean)
  | _ => []

/-- What the operation gives back, where the next wire is `n`. -/
def result (session n : Nat) : Operation K → Result K
  | constant k => .value (.constant k)
  | add a b => .value (a + b)
  | sub a b => .value (a - b)
  | neg a => .value (-a)
  | scale a k => .value (a.scale k)
  | sum as => .value (as.foldl (· + ·) 0)
  | mul _ _ => .wire (.internal session n)
  | mulMany [] => .asserted
  | mulMany (a :: as) => .value (productResult session n a as)
  | assertEqual _ _ | assertBoolean _ => .asserted
  | inverse a => .value <| match a.asConstant? with
    | some k => .constant k.inverseOrZero
    | none => ofWire (.internal session n)
  | div a b => .value <| match b.asConstant? with
    | some k => a.scale k.inverseOrZero
    | none => ofWire (.internal session n)
  | select bit x y => .value <| match bit.asConstant? with
    | some k => if k = 1 then x else y
    | none => if (x - y).isEmpty then y else ofWire (.internal session n) + y
  | isZero a => .value <| match a.asConstant? with
    | some k => .constant (.ofBool (k = 0))
    | none => ofWire (.internal session (n + 1))
  | toBinary _ count => .wires (internalWires session n count)
  | fromBinary as => .value (weightedSum 0 1 as)

end Operation

namespace Build

/-! ## Checks -/

/-- The computation checks that the operands may be used and then does what `rest` does.  An operand
that may not be used is a breach that leaves the builder as it is. -/
structure Checks {α : Type} (as : List (LinearCombination K)) (x rest : Build K α) : Prop where
  pass : ∀ {b : Builder K}, (∀ a ∈ as, Owned b a) → runOn x b = runOn rest b
  stop : ∀ {b : Builder K}, ¬ (∀ a ∈ as, Owned b a) → runOn x b = (.error .breach, b)

section
variable {α β : Type} {as : List (LinearCombination K)} {x rest : Build K α}

theorem Checks.nothing (x : Build K α) : Checks [] x x :=
  ⟨fun _ => rfl, fun h => absurd (List.forall_mem_nil _) h⟩

theorem Checks.operand {a : LinearCombination K} {f : LinearCombination K → Build K α}
    (h : Checks as (f a) rest) : Checks (a :: as) (checked a >>= f) rest where
  pass {b} owned := by
    rw [List.forall_mem_cons] at owned
    rw [runOn_bind, runOn_checked_eq_ok.2 ⟨owned.1, rfl, rfl⟩]
    exact h.pass owned.2
  stop {b} unusable := by
    rw [List.forall_mem_cons, not_and] at unusable
    rw [runOn_bind]
    by_cases owned : Owned b a
    · rw [runOn_checked_eq_ok.2 ⟨owned, rfl, rfl⟩]
      exact h.stop (unusable owned)
    · rw [runOn_checked_eq_error.2 ⟨owned, rfl, rfl⟩]

theorem Checks.map (h : Checks as x rest) (g : α → β) : Checks as (g <$> x) (g <$> rest) where
  pass owned := by rw [runOn_map, runOn_map, h.pass owned]
  stop unusable := by
    rw [runOn_map, h.stop unusable]
    rfl

theorem checks_sum (as : List (LinearCombination K)) :
    Checks as (sum as) (pure (as.foldl (· + ·) 0)) := by
  rw [sum]
  generalize (0 : LinearCombination K) = acc
  induction as generalizing acc with
  | nil => exact .nothing _
  | cons a as ih =>
    rw [List.foldlM_cons, bind_assoc]
    refine .operand ?_
    rw [pure_bind]
    exact ih (acc + a)

end

/-! ## Products -/

theorem runOn_mul_eq_ok {x y : LinearCombination K} {b b' : Builder K} {v : Wire} :
    runOn (mul x y) b = (.ok v, b') ↔
      Owned b x ∧ Owned b y ∧ v = .internal b.session b.numWires ∧
        b' = b.record [.wire (.product x y), .row ⟨x, y, .ofWire v, .mul⟩] := by
  simp only [mul, runOn_bind_eq_ok, runOn_checked_eq_ok, runOn_compute, runOn_enforce, runOn_pure,
    Prod.mk.injEq, Except.ok.injEq]
  constructor
  · rintro ⟨_, _, ⟨hx, rfl, rfl⟩, _, _, ⟨hy, rfl, rfl⟩, _, _, ⟨rfl, rfl⟩, _, _, ⟨_, rfl⟩, rfl, rfl⟩
    exact ⟨hx, hy, rfl, Builder.record_record _ _ _⟩
  · rintro ⟨hx, hy, rfl, rfl⟩
    exact ⟨_, _, ⟨hx, rfl, rfl⟩, _, _, ⟨hy, rfl, rfl⟩, _, _, ⟨rfl, rfl⟩, (), _, ⟨trivial, rfl⟩, rfl,
      Builder.record_record _ _ _⟩

theorem runOn_mul_eq_error {x y : LinearCombination K} {b b' : Builder K}
    {e : Failure CompileError} (h : runOn (mul x y) b = (.error e, b')) : b' = b := by
  simp only [mul, runOn_bind_eq_error, runOn_checked_eq_ok, runOn_checked_eq_error, runOn_compute,
    runOn_enforce, runOn_pure, Prod.mk.injEq, reduceCtorEq, false_and, and_false, exists_false,
    or_false] at h
  obtain ⟨-, -, rfl⟩ | ⟨_, _, ⟨-, rfl, rfl⟩, -, -, rfl⟩ := h
  · rfl
  · rfl

/-- The loop of `mulMany`. -/
def products (acc : LinearCombination K) (fs : List (LinearCombination K)) :
    Build K (LinearCombination K) :=
  fs.foldlM (fun acc f => return .ofWire (← mul acc f)) acc

theorem products_nil (acc : LinearCombination K) : products acc [] = pure acc := rfl

theorem products_cons (acc f : LinearCombination K) (fs : List (LinearCombination K)) :
    products acc (f :: fs) = mul acc f >>= fun v => products (.ofWire v) fs := by
  simp [products]

theorem runOn_products_eq_ok {acc r : LinearCombination K} {fs : List (LinearCombination K)}
    {b b' : Builder K} (h : runOn (products acc fs) b = (.ok r, b')) :
    (∀ f ∈ fs, Owned b' f) ∧ r = productResult b.session b.numWires acc fs ∧
      b' = b.record (productItems b.session b.numWires acc fs) := by
  induction fs generalizing acc b with
  | nil =>
    rw [products_nil, runOn_pure, Prod.mk.injEq, Except.ok.injEq] at h
    obtain ⟨rfl, rfl⟩ := h
    exact ⟨by simp, rfl, (Builder.record_nil _).symm⟩
  | cons f fs ih =>
    rw [products_cons, runOn_bind_eq_ok] at h
    obtain ⟨v, b₁, hmul, hrest⟩ := h
    obtain ⟨-, hf, rfl, rfl⟩ := runOn_mul_eq_ok.1 hmul
    obtain ⟨hfs, rfl, rfl⟩ := ih hrest
    refine ⟨?_, rfl, Builder.record_record _ _ _⟩
    rw [List.forall_mem_cons, Builder.record_record]
    exact ⟨hf.record _, by simpa using hfs⟩

/-- Where a chain of products fails, it has done as much as a shorter chain does. -/
theorem runOn_products_eq_error {acc : LinearCombination K} {fs : List (LinearCombination K)}
    {b b' : Builder K} {e : Failure CompileError}
    (h : runOn (products acc fs) b = (.error e, b')) :
    ∃ k r, runOn (products acc (fs.take k)) b = (.ok r, b') := by
  induction fs generalizing acc b with
  | nil => simp [products_nil] at h
  | cons f fs ih =>
    rw [products_cons, runOn_bind_eq_error] at h
    rcases h with h | ⟨v, b₁, hmul, hrest⟩
    · obtain rfl := runOn_mul_eq_error h
      exact ⟨0, acc, rfl⟩
    · obtain ⟨k, r, hr⟩ := ih hrest
      refine ⟨k + 1, r, ?_⟩
      rw [List.take_succ_cons, products_cons, runOn_bind_eq_ok]
      exact ⟨v, b₁, hmul, hr⟩

theorem mulMany_cons (a : LinearCombination K) (as : List (LinearCombination K)) :
    mulMany (a :: as) = checked a >>= fun first => products first as := rfl

/-! ## Bits -/

theorem runOn_enforceBoolean_eq_ok {tag : Tag} {a : LinearCombination K} {b b' : Builder K} :
    runOn (enforceBoolean tag a) b = (.ok (), b') ↔
      a.IfConstant Fp.IsBit ∧ b' = b.record (booleanItems tag a) := by
  rw [enforceBoolean, booleanItems, LinearCombination.isConstant, LinearCombination.IfConstant]
  cases a.asConstant? with
  | none => simp [eq_comm]
  | some k =>
    by_cases hk : k = 0 ∨ k = 1
    · simp [hk, Fp.IsBit, eq_comm]
    · simp [hk, Fp.IsBit]

theorem runOn_enforceBoolean (tag : Tag) {a : LinearCombination K} (h : a.IfConstant Fp.IsBit)
    (b : Builder K) :
    runOn (enforceBoolean tag a) b = (.ok (), b.record (booleanItems tag a)) :=
  runOn_enforceBoolean_eq_ok.2 ⟨h, rfl⟩

theorem runOn_enforceBoolean_refused (tag : Tag) {a : LinearCombination K}
    (h : ¬ a.IfConstant Fp.IsBit) :
    ∃ e, ∀ b, runOn (enforceBoolean tag a) b = (.error (.reported e), b) := by
  obtain ⟨k, hc, hk⟩ := LinearCombination.exists_of_not_ifConstant h
  refine ⟨.nonBooleanConstant k.val, fun b => ?_⟩
  rw [enforceBoolean, hc]
  exact congrArg (fun x => runOn x b) (if_neg hk)

theorem runOn_enforceBoolean_eq_error {tag : Tag} {a : LinearCombination K} {b b' : Builder K}
    {e : Failure CompileError} (h : runOn (enforceBoolean tag a) b = (.error e, b')) :
    e ≠ .breach ∧ b' = b := by
  by_cases hbit : a.IfConstant Fp.IsBit
  · rw [runOn_enforceBoolean tag hbit] at h
    cases h
  · obtain ⟨reported, hreport⟩ := runOn_enforceBoolean_refused tag hbit
    rw [hreport] at h
    cases h
    exact ⟨nofun, rfl⟩

theorem runOn_bits (a : LinearCombination K) (i count : Nat) (b : Builder K) :
    runOn (bits a i count) b = (.ok (internalWires b.session b.numWires count),
      b.record (bitItems b.session a b.numWires i count)) := by
  induction count generalizing i b with
  | zero => simp [bits, internalWires, bitItems]
  | succ count ih =>
    simp [bits, internalWires, bitItems, runOn_bind, runOn_map, ih, wireCount, Except.map]

theorem runOn_fromBinaryFrom_eq_ok {acc r : LinearCombination K} {weight : Fp K}
    {bs : List (LinearCombination K)} {b b' : Builder K}
    (h : runOn (fromBinaryFrom acc weight bs) b = (.ok r, b')) :
    (∀ a ∈ bs, Owned b' a) ∧ (∀ a ∈ bs, a.IfConstant Fp.IsBit) ∧ r = weightedSum acc weight bs ∧
      b' = b.record (bs.flatMap (booleanItems .boolean)) := by
  induction bs generalizing acc weight b with
  | nil =>
    rw [fromBinaryFrom, runOn_pure, Prod.mk.injEq, Except.ok.injEq] at h
    obtain ⟨rfl, rfl⟩ := h
    exact ⟨by simp, by simp, rfl, (Builder.record_nil _).symm⟩
  | cons a bs ih =>
    simp only [fromBinaryFrom, runOn_bind_eq_ok, runOn_checked_eq_ok] at h
    obtain ⟨_, _, ⟨ha, rfl, rfl⟩, _, _, hbit, h⟩ := h
    obtain ⟨hconst, rfl⟩ := runOn_enforceBoolean_eq_ok.1 hbit
    obtain ⟨howned, hconsts, rfl, rfl⟩ := ih h
    rw [Builder.record_record] at howned ⊢
    exact ⟨List.forall_mem_cons.2 ⟨ha.record _, howned⟩, List.forall_mem_cons.2 ⟨hconst, hconsts⟩,
      rfl, by rw [List.flatMap_cons]⟩

/-- Where a recomposition fails, it has done as much as one of fewer bits does. -/
theorem runOn_fromBinaryFrom_eq_error {acc : LinearCombination K} {weight : Fp K}
    {bs : List (LinearCombination K)} {b b' : Builder K} {e : Failure CompileError}
    (h : runOn (fromBinaryFrom acc weight bs) b = (.error e, b')) :
    ∃ k r, runOn (fromBinaryFrom acc weight (bs.take k)) b = (.ok r, b') := by
  induction bs generalizing acc weight b with
  | nil => simp [fromBinaryFrom] at h
  | cons a bs ih =>
    simp only [fromBinaryFrom, runOn_bind_eq_error, runOn_checked_eq_ok,
      runOn_checked_eq_error] at h
    obtain ⟨-, -, rfl⟩ | ⟨_, _, ⟨ha, rfl, rfl⟩, h | ⟨_, b₁, hbit, h⟩⟩ := h
    · exact ⟨0, acc, rfl⟩
    · obtain ⟨-, rfl⟩ := runOn_enforceBoolean_eq_error h
      exact ⟨0, acc, rfl⟩
    · obtain ⟨k, r, hr⟩ := ih h
      refine ⟨k + 1, r, ?_⟩
      simp only [List.take_succ_cons, fromBinaryFrom, runOn_bind_eq_ok, runOn_checked_eq_ok]
      exact ⟨_, _, ⟨ha, rfl, rfl⟩, _, _, hbit, hr⟩

end Build

/-! ## Operations -/

namespace Operation

open Build

/-- The operation checks its operands and then its constants before it records anything, so it
records everything or nothing. -/
structure Atomic (op : Operation K) : Prop where
  accepted : op.Accepted → ∀ {b : Builder K}, (∀ a ∈ op.operands, Owned b a) →
    runOn op.run b = (.ok (op.result b.session b.numWires),
      b.record (op.items b.session b.numWires))
  refused : ¬ op.Accepted → ∀ {b : Builder K}, (∀ a ∈ op.operands, Owned b a) →
    ∃ e, runOn op.run b = (.error (.reported e), b)
  unusable : ∀ {b : Builder K}, ¬ (∀ a ∈ op.operands, Owned b a) →
    runOn op.run b = (.error .breach, b)

section
variable {op : Operation K} {rest : Build K (Result K)}

theorem Atomic.of_checks (checks : Checks op.operands op.run rest)
    (accepted : op.Accepted → ∀ b, runOn rest b = (.ok (op.result b.session b.numWires),
      b.record (op.items b.session b.numWires)))
    (refused : ¬ op.Accepted → ∃ e, ∀ b, runOn rest b = (.error (.reported e), b)) :
    op.Atomic where
  accepted h _ owned := (checks.pass owned).trans (accepted h _)
  refused h b owned := by
    obtain ⟨e, he⟩ := refused h
    exact ⟨e, (checks.pass owned).trans (he b)⟩
  unusable := checks.stop

theorem Atomic.of_items_eq_nil (checks : Checks op.operands op.run rest) (accepted : op.Accepted)
    (given : ∀ b, runOn rest b = (.ok (op.result b.session b.numWires), b))
    (silent : ∀ session n, op.items session n = []) : op.Atomic :=
  .of_checks checks (fun _ b => by rw [given, silent, Builder.record_nil]) (absurd accepted)

/-- What an operation does that records everything or nothing. -/
theorem Atomic.ok_or_error (atomic : op.Atomic) (b : Builder K) :
    (op.Accepted ∧ (∀ a ∈ op.operands, Owned b a) ∧
      runOn op.run b = (.ok (op.result b.session b.numWires),
        b.record (op.items b.session b.numWires))) ∨
    ∃ e, runOn op.run b = (.error e, b) ∧ (e = .breach → ¬ ∀ a ∈ op.operands, Owned b a) := by
  by_cases owned : ∀ a ∈ op.operands, Owned b a
  · by_cases accepted : op.Accepted
    · exact .inl ⟨accepted, owned, atomic.accepted accepted owned⟩
    · obtain ⟨e, he⟩ := atomic.refused accepted owned
      exact .inr ⟨_, he, nofun⟩
  · exact .inr ⟨_, atomic.unusable owned, fun _ => owned⟩

end

section
variable (x y : LinearCombination K)

theorem atomic_constant (k : Fp K) : (constant k).Atomic :=
  .of_items_eq_nil (.nothing _) trivial (fun _ => rfl) fun _ _ => rfl

theorem atomic_add : (add x y).Atomic :=
  .of_items_eq_nil ((Checks.nothing _).operand.operand.map _) trivial (fun _ => rfl) fun _ _ => rfl

theorem atomic_sub : (sub x y).Atomic :=
  .of_items_eq_nil ((Checks.nothing _).operand.operand.map _) trivial (fun _ => rfl) fun _ _ => rfl

theorem atomic_neg : (neg x).Atomic :=
  .of_items_eq_nil ((Checks.nothing _).operand.map _) trivial (fun _ => rfl) fun _ _ => rfl

theorem atomic_scale (k : Fp K) : (scale x k).Atomic :=
  .of_items_eq_nil ((Checks.nothing _).operand.map _) trivial (fun _ => rfl) fun _ _ => rfl

theorem atomic_sum (as : List (LinearCombination K)) : (sum as).Atomic :=
  .of_items_eq_nil ((checks_sum as).map _) trivial (fun _ => rfl) fun _ _ => rfl

theorem atomic_mul : (mul x y).Atomic := by
  refine .of_checks ((Checks.nothing _).operand.operand.map _) (fun _ b => ?_) (absurd trivial)
  simp [runOn_map, runOn_bind, Except.map, result, items, productItems]

theorem atomic_assertEqual : (assertEqual x y).Atomic := by
  refine .of_checks ((Checks.nothing _).operand.operand.map _) ?_ ?_
  · intro accepted b
    rw [items, LinearCombination.isConstant, LinearCombination.isConstant, runOn_map]
    cases hc : x.asConstant? with
    | none => simp [Except.map, result]
    | some c =>
      cases hd : y.asConstant? with
      | none => simp [Except.map, result]
      | some d => simp [accepted c d hc hd, Except.map, result]
  · intro refused
    simp only [Accepted, not_forall] at refused
    obtain ⟨c, d, hc, hd, different⟩ := refused
    refine ⟨.unequalConstants c.val d.val, fun b => ?_⟩
    simp [hc, hd, different, runOn_map, Except.map]

theorem atomic_inverse : (inverse x).Atomic := by
  refine .of_checks ((Checks.nothing _).operand.map _) ?_ ?_
  · intro accepted b
    rw [items, result, LinearCombination.isConstant, runOn_map]
    cases hc : x.asConstant? with
    | none => simp [runOn_bind, runOn_map, Except.map]
    | some k =>
      have hk : k ≠ 0 := accepted k hc
      simp [Fp.inverse?, hk, Except.map]
  · intro refused
    obtain ⟨k, hc, hk⟩ := LinearCombination.exists_of_not_ifConstant refused
    obtain rfl := not_not.1 hk
    exact ⟨.divisionByZero, fun b => by simp [hc, Fp.inverse?, runOn_map, Except.map]⟩

theorem atomic_div : (div x y).Atomic := by
  refine .of_checks ((Checks.nothing _).operand.operand.map _) ?_ ?_
  · intro accepted b
    rw [items, result, LinearCombination.isConstant, runOn_map]
    cases hc : y.asConstant? with
    | none => simp [runOn_bind, runOn_map, Except.map]
    | some k =>
      have hk : k ≠ 0 := accepted k hc
      simp [Fp.inverse?, hk, Except.map]
  · intro refused
    obtain ⟨k, hc, hk⟩ := LinearCombination.exists_of_not_ifConstant refused
    obtain rfl := not_not.1 hk
    exact ⟨.divisionByZero, fun b => by simp [hc, Fp.inverse?, runOn_map, Except.map]⟩

theorem atomic_assertBoolean : (assertBoolean x).Atomic := by
  refine .of_checks ((Checks.nothing _).operand.map _) ?_ ?_
  · intro accepted b
    rw [runOn_map, runOn_enforceBoolean _ accepted]
    rfl
  · intro refused
    obtain ⟨e, he⟩ := runOn_enforceBoolean_refused .boolean refused
    exact ⟨e, fun b => by rw [runOn_map, he]; rfl⟩

theorem atomic_select (bit : LinearCombination K) : (select bit x y).Atomic := by
  refine .of_checks ((Checks.nothing _).operand.operand.operand.map _) ?_ ?_
  · intro accepted b
    rw [items, result, LinearCombination.isConstant, runOn_map, runOn_bind,
      runOn_enforceBoolean _ accepted]
    cases hc : bit.asConstant? with
    | none =>
      by_cases same : (x - y).isEmpty
      · simp [same, Except.map]
      · simp [same, runOn_bind, runOn_map, Except.map]
    | some k => simp [Except.map]
  · intro refused
    obtain ⟨e, he⟩ := runOn_enforceBoolean_refused .select refused
    exact ⟨e, fun b => by rw [runOn_map, runOn_bind, he]; rfl⟩

theorem atomic_isZero : (isZero x).Atomic := by
  refine .of_checks ((Checks.nothing _).operand.map _) (fun _ b => ?_) (absurd trivial)
  rw [items, result, LinearCombination.isConstant, runOn_map]
  cases hc : x.asConstant? with
  | none => simp [runOn_bind, runOn_map, wireCount, Except.map]
  | some k => simp [Except.map]

theorem atomic_toBinary (count : Nat) : (toBinary x count).Atomic := by
  refine .of_checks ((Checks.nothing _).operand.map _) ?_ ?_
  · intro accepted b
    have hwidth : ¬ (count = 0 ∨ maxBits K < count) := by
      rw [Accepted] at accepted
      omega
    simp [hwidth, runOn_map, runOn_bind, runOn_bits, Except.map, items, result]
  · intro refused
    have hwidth : count = 0 ∨ maxBits K < count := by
      rw [Accepted] at refused
      omega
    exact ⟨.bitWidth count (maxBits K), fun b => by simp [hwidth, runOn_bind]⟩

end

/-- All operations record everything or nothing, but the two that go through a list of operands.
What those record for one operand stays where the next one is no good. -/
theorem atomic_or_stepwise (op : Operation K) :
    op.Atomic ∨ (∃ as, op = mulMany as) ∨ ∃ as, op = fromBinary as := by
  cases op with
  | constant k => exact .inl (atomic_constant k)
  | add x y => exact .inl (atomic_add x y)
  | sub x y => exact .inl (atomic_sub x y)
  | neg x => exact .inl (atomic_neg x)
  | scale x k => exact .inl (atomic_scale x k)
  | sum as => exact .inl (atomic_sum as)
  | mul x y => exact .inl (atomic_mul x y)
  | assertEqual x y => exact .inl (atomic_assertEqual x y)
  | inverse x => exact .inl (atomic_inverse x)
  | div x y => exact .inl (atomic_div x y)
  | assertBoolean x => exact .inl (atomic_assertBoolean x)
  | select bit x y => exact .inl (atomic_select x y bit)
  | isZero x => exact .inl (atomic_isZero x)
  | toBinary x count => exact .inl (atomic_toBinary x count)
  | mulMany as => exact .inr (.inl ⟨as, rfl⟩)
  | fromBinary as => exact .inr (.inr ⟨as, rfl⟩)

/-- **What an operation does that succeeds.** -/
theorem runOn_ok {op : Operation K} {r : Result K} {b b' : Builder K}
    (h : runOn op.run b = (.ok r, b')) :
    op.Accepted ∧ (∀ a ∈ op.operands, Owned b' a) ∧ r = op.result b.session b.numWires ∧
      b' = b.record (op.items b.session b.numWires) := by
  rcases op.atomic_or_stepwise with atomic | ⟨as, rfl⟩ | ⟨as, rfl⟩
  · rcases atomic.ok_or_error b with ⟨accepted, owned, hok⟩ | ⟨e, herror, -⟩
    · rw [hok] at h
      cases h
      exact ⟨accepted, fun a ha => (owned a ha).record _, rfl, rfl⟩
    · rw [herror] at h
      cases h
  · obtain ⟨_, hmul, rfl⟩ := runOn_map_eq_ok.1 h
    cases as with
    | nil => simp [Build.mulMany] at hmul
    | cons a as =>
      rw [mulMany_cons, runOn_bind_eq_ok] at hmul
      obtain ⟨_, _, hcheck, hrest⟩ := hmul
      obtain ⟨ha, rfl, rfl⟩ := runOn_checked_eq_ok.1 hcheck
      obtain ⟨has, rfl, rfl⟩ := runOn_products_eq_ok hrest
      exact ⟨List.cons_ne_nil _ _, List.forall_mem_cons.2 ⟨ha.record _, has⟩, rfl, rfl⟩
  · obtain ⟨_, hnum, rfl⟩ := runOn_map_eq_ok.1 h
    obtain ⟨howned, hconst, rfl, rfl⟩ := runOn_fromBinaryFrom_eq_ok hnum
    exact ⟨hconst, howned, rfl, rfl⟩

/-- **What an operation leaves behind that fails**: nothing, or what an operation on the operands
before the failure appends. -/
theorem runOn_error {op : Operation K} {e : Failure CompileError} {b b' : Builder K}
    (h : runOn op.run b = (.error e, b')) :
    b' = b ∨ ∃ (op' : Operation K) (r : Result K),
      runOn op'.run b = (.ok r, b') ∧ op'.operands ⊆ op.operands := by
  rcases op.atomic_or_stepwise with atomic | ⟨as, rfl⟩ | ⟨as, rfl⟩
  · rcases atomic.ok_or_error b with ⟨-, -, hok⟩ | ⟨_, herror, -⟩
    · rw [hok] at h
      cases h
    · rw [herror] at h
      cases h
      exact .inl rfl
  · rw [run, runOn_map_eq_error] at h
    cases as with
    | nil =>
      simp only [Build.mulMany, runOn_report, Prod.mk.injEq] at h
      exact .inl h.2.symm
    | cons a as =>
      rw [mulMany_cons, runOn_bind_eq_error] at h
      obtain h | ⟨_, _, hcheck, h⟩ := h
      · exact .inl (runOn_checked_eq_error.1 h).2.2
      · obtain ⟨k, r, hr⟩ := runOn_products_eq_error h
        refine .inr ⟨mulMany (a :: as.take k), .value r, ?_,
          List.cons_subset_cons a (List.take_subset k as)⟩
        rw [run, runOn_map_eq_ok]
        refine ⟨r, ?_, rfl⟩
        rw [mulMany_cons, runOn_bind_eq_ok]
        exact ⟨_, _, hcheck, hr⟩
  · obtain ⟨k, r, hr⟩ := runOn_fromBinaryFrom_eq_error (runOn_map_eq_error.1 h)
    refine .inr ⟨fromBinary (as.take k), .value r, ?_, List.take_subset k as⟩
    rw [run, runOn_map_eq_ok]
    exact ⟨r, hr, rfl⟩

/-- What an operation leaves behind, whatever its outcome: nothing, or what an operation that
succeeds appends, on some of the operands. -/
theorem runOn_cases {op : Operation K} {outcome : Outcome CompileError (Result K)}
    {b b' : Builder K} (h : runOn op.run b = (outcome, b')) :
    b' = b ∨ ∃ (op' : Operation K) (r : Result K),
      runOn op'.run b = (.ok r, b') ∧ op'.operands ⊆ op.operands := by
  cases outcome with
  | ok r => exact .inr ⟨op, r, h, List.Subset.refl _⟩
  | error e => exact runOn_error h

end Operation

end Groth16
