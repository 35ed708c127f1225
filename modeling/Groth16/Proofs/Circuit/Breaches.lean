import Groth16.Proofs.Circuit.Scope

/-!
# When an operation is a breach

An operation checks that the builder may use the wires that its operands mention.

* `Builder.Foreign`: a handle of another compilation.
* `Operation.breaches_of_unusable`: an operation that reads a handle of another compilation is a
  breach.
* `Operation.not_breaches`: an operation on wires that the builder may use is none.
* `Operation.items_within`: what is recorded mentions the operands and wires of the compilation.
-/

set_option autoImplicit false

namespace Groth16

open LinearCombination (ofWire)

variable {K : PrimeField}

/-! ## Breaches -/

/-- The handle belongs to another compilation than that of the builder. -/
def Builder.Foreign (b : Builder K) (w : Wire) : Prop := w.role ≠ .constant ∧ w.session ≠ b.session

theorem Builder.Foreign.not_owns {b : Builder K} {w : Wire} (h : b.Foreign w) :
    ¬ Build.owns b w = true := by
  rw [Build.owns_iff]
  exact not_or.2 ⟨h.1, fun hw => h.2 hw.1⟩

namespace Build

/-- The combination mentions a handle of another compilation. -/
def Unusable (b : Builder K) (a : LinearCombination K) : Prop := ∃ w ∈ a.wires, b.Foreign w

theorem Unusable.not_owned {b : Builder K} {a : LinearCombination K} (h : Unusable b a) :
    ¬ Owned b a := by
  obtain ⟨w, hw, foreign⟩ := h
  exact fun owned => foreign.not_owns (owned w hw)

theorem Unusable.record {b : Builder K} {a : LinearCombination K} (h : Unusable b a)
    (items : List (Item K)) : Unusable (b.record items) a := h

/-- The computation ends with a breach. -/
def Breaches {α : Type} (x : Build K α) (b : Builder K) : Prop :=
  ∃ b', runOn x b = (.error .breach, b')

section
variable {α β : Type} {x : Build K α} {f : α → Build K β} {b b' : Builder K}
  {a : LinearCombination K}

theorem breaches_map_iff {g : α → β} : Breaches (g <$> x) b ↔ Breaches x b :=
  exists_congr fun _ => runOn_map_eq_error

theorem Breaches.bind (h : Breaches x b) : Breaches (x >>= f) b :=
  h.imp fun _ hx => runOn_bind_eq_error.2 (.inl hx)

theorem breaches_bind_of_ok {r : α} (h : runOn x b = (.ok r, b')) :
    Breaches (x >>= f) b ↔ Breaches (f r) b' := by
  rw [Breaches, runOn_bind, h, Breaches]

theorem breaches_checked (h : ¬ Owned b a) : Breaches (checked a) b :=
  ⟨b, runOn_checked_eq_error.2 ⟨h, rfl, rfl⟩⟩

/-- Behind a check, a breach is one anyway. -/
theorem Breaches.checked_bind {f : LinearCombination K → Build K β} (h : Breaches (f a) b) :
    Breaches (checked a >>= f) b := by
  by_cases owned : Owned b a
  · exact (breaches_bind_of_ok (runOn_checked_eq_ok.2 ⟨owned, rfl, rfl⟩)).2 h
  · exact (breaches_checked owned).bind

theorem breaches_checked_bind_iff {f : LinearCombination K → Build K β} (owned : Owned b a) :
    Breaches (checked a >>= f) b ↔ Breaches (f a) b :=
  breaches_bind_of_ok (runOn_checked_eq_ok.2 ⟨owned, rfl, rfl⟩)

end

/-! ### Operands of other compilations -/

section
variable {b : Builder K} {acc : LinearCombination K}

/-- A product is a breach, or it is recorded. -/
theorem breaches_mul_or_ok (b : Builder K) (x y : LinearCombination K) : Breaches (mul x y) b ∨
    ∃ v items, runOn (mul x y) b = (.ok v, b.record items) := by
  by_cases hx : Owned b x
  · by_cases hy : Owned b y
    · exact .inr ⟨_, _, runOn_mul_eq_ok.2 ⟨hx, hy, rfl, rfl⟩⟩
    · exact .inl (breaches_checked hy).bind.checked_bind
  · exact .inl (breaches_checked hx).bind

theorem breaches_products {fs : List (LinearCombination K)} (h : ∃ f ∈ fs, Unusable b f) :
    Breaches (products acc fs) b := by
  induction fs generalizing acc b with
  | nil => simp at h
  | cons f fs ih =>
    rw [products_cons]
    rcases breaches_mul_or_ok b acc f with hmul | ⟨v, items, hmul⟩
    · exact hmul.bind
    · rw [breaches_bind_of_ok hmul]
      rw [List.exists_mem_cons_iff] at h
      rcases h with unusable | ⟨g, hg, unusable⟩
      · exact absurd (runOn_mul_eq_ok.1 hmul).2.1 unusable.not_owned
      · exact ih ⟨g, hg, unusable.record items⟩

theorem breaches_fromBinaryFrom {weight : Fp K} {bs : List (LinearCombination K)} {k : Nat}
    {a : LinearCombination K} (h : bs[k]? = some a) (unusable : Unusable b a)
    (before : ∀ c ∈ bs.take k, c.IfConstant Fp.IsBit) :
    Breaches (fromBinaryFrom acc weight bs) b := by
  induction bs generalizing acc weight b k with
  | nil => cases h
  | cons c bs ih =>
    rw [fromBinaryFrom]
    cases k with
    | zero =>
      obtain rfl := Option.some.inj h
      exact (breaches_checked unusable.not_owned).bind
    | succ k =>
      rw [List.take_succ_cons, List.forall_mem_cons] at before
      refine Breaches.checked_bind ?_
      rw [breaches_bind_of_ok (runOn_enforceBoolean_eq_ok.2 ⟨before.1, rfl⟩)]
      exact ih h (unusable.record _) before.2

end

/-! ### Operands that may be used -/

section
variable {b b' : Builder K}

theorem not_breaches_of_ok {α : Type} {x : Build K α} {r : α} (h : runOn x b = (.ok r, b')) :
    ¬ Breaches x b := by
  rintro ⟨b'', hbreach⟩
  rw [h] at hbreach
  cases hbreach

theorem not_breaches_products {acc : LinearCombination K} {fs : List (LinearCombination K)}
    (hacc : Owned b acc) (hfs : ∀ f ∈ fs, Owned b f) : ¬ Breaches (products acc fs) b := by
  induction fs generalizing acc b with
  | nil => exact not_breaches_of_ok (runOn_pure acc b)
  | cons f fs ih =>
    rw [List.forall_mem_cons] at hfs
    rw [products_cons, breaches_bind_of_ok (runOn_mul_eq_ok.2 ⟨hacc, hfs.1, rfl, rfl⟩)]
    refine ih (fun w hw => ?_) fun g hg => (hfs.2 g hg).record _
    obtain rfl := List.mem_singleton.1 hw
    exact owns_iff.2 (.inr ⟨rfl, Nat.lt_add_of_pos_right Nat.one_pos⟩)

theorem not_breaches_fromBinaryFrom {acc : LinearCombination K} {weight : Fp K}
    {bs : List (LinearCombination K)} (h : ∀ a ∈ bs, Owned b a) :
    ¬ Breaches (fromBinaryFrom acc weight bs) b := by
  induction bs generalizing acc weight b with
  | nil => exact not_breaches_of_ok (runOn_pure acc b)
  | cons a bs ih =>
    rw [List.forall_mem_cons] at h
    rw [fromBinaryFrom, breaches_checked_bind_iff h.1]
    rintro ⟨b', hbreach⟩
    rcases runOn_bind_eq_error.1 hbreach with hbool | ⟨⟨⟩, b₁, hbool, hrest⟩
    · exact (runOn_enforceBoolean_eq_error hbool).1 rfl
    · obtain ⟨-, rfl⟩ := runOn_enforceBoolean_eq_ok.1 hbool
      exact ih (fun c hc => (h.2 c hc).record _) ⟨b', hrest⟩

end

end Build

namespace Operation

open Build

variable {op : Operation K} {b : Builder K}

/-- The operation reads its operand number `k`.  All operations read all of theirs, but in the
recomposition of bits a constant that is no bit is an error before the bits behind it are read. -/
def Reaches (k : Nat) : Operation K → Prop
  | fromBinary as => ∀ a ∈ as.take k, a.IfConstant Fp.IsBit
  | _ => True

/-- **An operation that reads a handle of another compilation is a breach.** -/
theorem breaches_of_unusable {k : Nat} {a : LinearCombination K} (h : op.operands[k]? = some a)
    (unusable : Unusable b a) (reaches : op.Reaches k) : Breaches op.run b := by
  have hmem := List.mem_of_getElem? h
  rcases op.atomic_or_stepwise with atomic | ⟨as, rfl⟩ | ⟨as, rfl⟩
  · exact ⟨b, atomic.unusable fun owned => unusable.not_owned (owned a hmem)⟩
  · refine breaches_map_iff.2 ?_
    cases as with
    | nil => cases hmem
    | cons first as =>
      rw [mulMany_cons]
      rcases List.mem_cons.1 hmem with rfl | hmem
      · exact (breaches_checked unusable.not_owned).bind
      · exact (breaches_products ⟨a, hmem, unusable⟩).checked_bind
  · exact breaches_map_iff.2 (breaches_fromBinaryFrom h unusable reaches)

/-- **An operation on wires that the builder may use is no breach**, whatever it reports. -/
theorem not_breaches (owned : ∀ a ∈ op.operands, Owned b a) : ¬ Breaches op.run b := by
  rcases op.atomic_or_stepwise with atomic | ⟨as, rfl⟩ | ⟨as, rfl⟩
  · rcases atomic.ok_or_error b with ⟨-, -, hok⟩ | ⟨e, herror, hbreach⟩
    · exact not_breaches_of_ok hok
    · rintro ⟨b', h⟩
      rw [herror] at h
      cases h
      exact hbreach rfl owned
  · rw [run, breaches_map_iff]
    cases as with
    | nil => simp [Breaches, Build.mulMany]
    | cons first as =>
      rw [operands, List.forall_mem_cons] at owned
      rw [mulMany_cons, breaches_checked_bind_iff owned.1]
      exact not_breaches_products owned.1 owned.2
  · exact breaches_map_iff.not.2 (not_breaches_fromBinaryFrom owned)

end Operation

/-! ## What is recorded -/

/-- The combinations that an item mentions. -/
def Item.operands : Item K → List (LinearCombination K)
  | .wire recipe => recipe.operands
  | .row c => [c.a, c.b, c.c]

section
variable {P : Wire → Prop}

/-- All wires that items mention are as `P` says. -/
def ItemsWithin (P : Wire → Prop) (items : List (Item K)) : Prop :=
  ∀ x ∈ items, ∀ a ∈ x.operands, a.Within P

theorem ItemsWithin.append {xs ys : List (Item K)} (hx : ItemsWithin P xs)
    (hy : ItemsWithin P ys) : ItemsWithin P (xs ++ ys) :=
  fun x h => (List.mem_append.1 h).elim (hx x) (hy x)

theorem itemsWithin_nil : ItemsWithin P ([] : List (Item K)) := nofun

theorem itemsWithin_wire_iff {recipe : Recipe K} {items : List (Item K)} :
    ItemsWithin P (.wire recipe :: items) ↔
      (∀ a ∈ recipe.operands, a.Within P) ∧ ItemsWithin P items := List.forall_mem_cons

theorem itemsWithin_row_iff {c : Constraint K} {items : List (Item K)} :
    ItemsWithin P (.row c :: items) ↔
      (c.a.Within P ∧ c.b.Within P ∧ c.c.Within P) ∧ ItemsWithin P items := by
  rw [ItemsWithin, List.forall_mem_cons, Item.operands, List.forall_mem_cons, List.forall_mem_cons,
    List.forall_mem_singleton]
  rfl

variable {session : Nat} {a acc : LinearCombination K} {as fs : List (LinearCombination K)}

theorem itemsWithin_booleanItems (one : P .one) (tag : Tag) (ha : a.Within P) :
    ItemsWithin P (booleanItems tag a) := by
  rw [booleanItems]
  split
  · exact itemsWithin_nil
  · exact itemsWithin_row_iff.2 ⟨⟨ha, (LinearCombination.within_constant one 1).sub ha,
      LinearCombination.within_zero⟩, itemsWithin_nil⟩

theorem itemsWithin_productItems (internal : ∀ i, P (.internal session i)) (n : Nat)
    (hacc : acc.Within P) (hfs : ∀ f ∈ fs, f.Within P) :
    ItemsWithin P (productItems session n acc fs) := by
  induction fs generalizing n acc with
  | nil => exact itemsWithin_nil
  | cons f fs ih =>
    rw [List.forall_mem_cons] at hfs
    have hv := LinearCombination.within_ofWire (K := K) (internal n)
    rw [productItems, itemsWithin_wire_iff, itemsWithin_row_iff]
    refine ⟨?_, ⟨hacc, hfs.1, hv⟩, ih (n + 1) hv hfs.2⟩
    exact List.forall_mem_cons.2 ⟨hacc, List.forall_mem_singleton.2 hfs.1⟩

theorem itemsWithin_bitItems (one : P .one) (internal : ∀ i, P (.internal session i)) (n i : Nat)
    (count : Nat) (ha : a.Within P) : ItemsWithin P (bitItems session a n i count) := by
  induction count generalizing n i with
  | zero => exact itemsWithin_nil
  | succ count ih =>
    have hb := LinearCombination.within_ofWire (K := K) (internal n)
    rw [bitItems, itemsWithin_wire_iff, itemsWithin_row_iff]
    exact ⟨List.forall_mem_singleton.2 ha, ⟨hb, (LinearCombination.within_constant one 1).sub hb,
      LinearCombination.within_zero⟩, ih (n + 1) (i + 1)⟩

/-- **What an operation records mentions** the one-wire, its operands and wires of the
compilation. -/
theorem Operation.items_within {op : Operation K} (one : P .one)
    (internal : ∀ i, P (.internal session i)) (n : Nat)
    (operands : ∀ a ∈ op.operands, a.Within P) : ItemsWithin P (op.items session n) := by
  have hone : (Build.one : LinearCombination K).Within P := LinearCombination.within_ofWire one
  have hwire : ∀ i, (ofWire (.internal session i) : LinearCombination K).Within P := fun i =>
    LinearCombination.within_ofWire (internal i)
  have hzero : (0 : LinearCombination K).Within P := LinearCombination.within_zero
  cases op with
  | constant k | add x y | sub x y | neg x | scale x k | sum as => exact itemsWithin_nil
  | mul x y =>
    simp only [Operation.operands, List.forall_mem_cons] at operands
    exact itemsWithin_productItems internal n operands.1 (by simpa using operands.2.1)
  | mulMany as =>
    cases as with
    | nil => exact itemsWithin_nil
    | cons a as =>
      rw [Operation.operands, List.forall_mem_cons] at operands
      exact itemsWithin_productItems internal n operands.1 operands.2
  | assertEqual x y =>
    simp only [Operation.operands, List.forall_mem_cons] at operands
    rw [items]
    split
    · exact itemsWithin_nil
    · exact itemsWithin_row_iff.2 ⟨⟨operands.1, hone, operands.2.1⟩, itemsWithin_nil⟩
  | inverse x =>
    simp only [Operation.operands, List.forall_mem_cons] at operands
    rw [items]
    split
    · exact itemsWithin_nil
    · refine itemsWithin_wire_iff.2 ⟨List.forall_mem_singleton.2 operands.1, ?_⟩
      exact itemsWithin_row_iff.2 ⟨⟨operands.1, hwire n, hone⟩, itemsWithin_nil⟩
  | div x y =>
    simp only [Operation.operands, List.forall_mem_cons] at operands
    obtain ⟨hx, hy, -⟩ := operands
    rw [items]
    split
    · exact itemsWithin_nil
    · refine itemsWithin_wire_iff.2 ⟨?_, itemsWithin_row_iff.2 ⟨⟨hy, hwire n, hx⟩, itemsWithin_nil⟩⟩
      exact List.forall_mem_cons.2 ⟨hx, List.forall_mem_singleton.2 hy⟩
  | assertBoolean x =>
    simp only [Operation.operands, List.forall_mem_cons] at operands
    exact itemsWithin_booleanItems one _ operands.1
  | select bit x y =>
    simp only [Operation.operands, List.forall_mem_cons] at operands
    obtain ⟨hbit, hx, hy, -⟩ := operands
    refine (itemsWithin_booleanItems one _ hbit).append ?_
    split
    · exact itemsWithin_nil
    · refine itemsWithin_wire_iff.2 ⟨?_, itemsWithin_row_iff.2
        ⟨⟨hbit, hx.sub hy, hwire n⟩, itemsWithin_nil⟩⟩
      exact List.forall_mem_cons.2 ⟨hbit, List.forall_mem_singleton.2 (hx.sub hy)⟩
  | isZero x =>
    simp only [Operation.operands, List.forall_mem_cons] at operands
    have ha := List.forall_mem_singleton.2 operands.1
    have hout := (LinearCombination.within_constant one (1 : Fp K)).sub (hwire (n + 1))
    rw [items]
    split
    · exact itemsWithin_nil
    · exact itemsWithin_wire_iff.2 ⟨ha, itemsWithin_wire_iff.2 ⟨ha, itemsWithin_row_iff.2
        ⟨⟨operands.1, hwire n, hout⟩, itemsWithin_row_iff.2
          ⟨⟨operands.1, hwire (n + 1), hzero⟩, itemsWithin_nil⟩⟩⟩⟩
  | toBinary x count =>
    simp only [Operation.operands, List.forall_mem_cons] at operands
    refine (itemsWithin_bitItems one internal n 0 count operands.1).append ?_
    refine itemsWithin_row_iff.2 ⟨⟨fun w hw => ?_, hone, operands.1⟩, itemsWithin_nil⟩
    have hmem := LinearCombination.mem_wires_ofTerms hw
    rw [map_wire_weighted] at hmem
    obtain ⟨i, -, -, rfl⟩ := mem_internalWires.1 hmem
    exact internal i
  | fromBinary as =>
    intro x hx
    obtain ⟨a, ha, hx⟩ := List.mem_flatMap.1 hx
    exact itemsWithin_booleanItems one _ (operands a ha) x hx

end

end Groth16
