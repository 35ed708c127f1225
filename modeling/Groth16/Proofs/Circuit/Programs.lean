import Groth16.Proofs.Circuit.Laws
import Groth16.Proofs.Circuit.Scope

/-!
# Lists of operations

What a circuit does comes down to a list of operations, each on wires that were handed out before.
This file carries the laws of single operations over to such lists.

* `itemsOf` and `resultsOf`: what a list of operations records, and what it gives back.
* `Admissible`: every operation is accepted, and mentions only the one-wire, wires that are known at
  the beginning, and wires that operations before it gave back.
* `Admissible.scoped`: what admissible operations record mentions only wires that are there already.
* `Admissible.itemsHold_iff`: rows and recipes hold exactly if the operations can be carried out on
  field elements, and then every wire holds what this gives.
* `Admissible.values_results`: where the rows hold, every operation is possible and its result has
  the values that it names.
* `Admissible.agree`: two assignments on which the rows hold and that agree on the known wires agree
  on all wires that are given back, and on all others but the inverse of zero in a test for zero.
-/

set_option autoImplicit false

namespace Groth16

variable {K : PrimeField}

/-! ## Definitions -/

/-- What a list of operations records, where the next wire is `n`. -/
def itemsOf (session : Nat) : Nat → List (Operation K) → List (Item K)
  | _, [] => []
  | n, op :: ops => op.items session n ++ itemsOf session (n + wireCount (op.items session n)) ops

/-- What a list of operations gives back, where the next wire is `n`. -/
def resultsOf (session : Nat) : Nat → List (Operation K) → List (Result K)
  | _, [] => []
  | n, op :: ops =>
    op.result session n :: resultsOf session (n + wireCount (op.items session n)) ops

/-- The operation mentions no wires but the one-wire and those that are known. -/
def Operation.Knows (known : List Wire) (op : Operation K) : Prop :=
  ∀ a ∈ op.operands, ∀ w ∈ a.wires, w = .one ∨ w ∈ known

/-- Every operation is accepted and mentions only wires that are known or were given back before. -/
def Admissible (session : Nat) : List Wire → Nat → List (Operation K) → Prop
  | _, _, [] => True
  | known, n, op :: ops =>
    op.Accepted ∧ op.Knows known ∧
      Admissible session (known ++ (op.result session n).mentioned)
        (n + wireCount (op.items session n)) ops

instance (known : List Wire) (op : Operation K) : Decidable (op.Knows known) :=
  inferInstanceAs (Decidable (∀ a ∈ op.operands, ∀ w ∈ a.wires, w = .one ∨ w ∈ known))

instance Admissible.decidable (session : Nat) : ∀ (known : List Wire) (n : Nat)
    (ops : List (Operation K)), Decidable (Admissible session known n ops)
  | _, _, [] => inferInstanceAs (Decidable True)
  | known, n, op :: ops =>
    have := Admissible.decidable session (known ++ (op.result session n).mentioned)
      (n + wireCount (op.items session n)) ops
    inferInstanceAs (Decidable (_ ∧ _ ∧ _))

/-- Every known wire lies before position `n`, and so does the one-wire. -/
structure KnownBelow (known : List Wire) (n : Nat) : Prop where
  /-- There is a wire. -/
  pos : 0 < n
  /-- The known wires lie before position `n`. -/
  lt : ∀ w ∈ known, w.index < n

/-! ## Known wires -/

theorem Operation.Knows.mono {known known' : List Wire} {op : Operation K} (h : op.Knows known)
    (sub : known ⊆ known') : op.Knows known' :=
  fun a ha w hw => (h a ha w hw).imp_right fun h => sub h

/-- Nothing is lost if more wires are known. -/
theorem Admissible.mono {session : Nat} {known known' : List Wire} {n : Nat}
    {ops : List (Operation K)} (h : Admissible session known n ops) (sub : known ⊆ known') :
    Admissible session known' n ops := by
  induction ops generalizing known known' n with
  | nil => trivial
  | cons op ops ih =>
    refine ⟨h.1, h.2.1.mono sub, ih h.2.2 ?_⟩
    exact List.append_subset.2 ⟨fun w hw => List.mem_append_left _ (sub hw),
      List.subset_append_right _ _⟩

theorem KnownBelow.operands {known : List Wire} {n : Nat} {op : Operation K}
    (below : KnownBelow known n) (knows : op.Knows known) : ∀ a ∈ op.operands, a.Below n := by
  intro a ha w hw
  rcases knows a ha w hw with rfl | h
  · exact below.pos
  · exact below.lt w h

/-- What an operation gives back is known after it. -/
theorem KnownBelow.next {known : List Wire} {n : Nat} {op : Operation K}
    (below : KnownBelow known n) (knows : op.Knows known) (session : Nat) :
    KnownBelow (known ++ (op.result session n).mentioned)
      (n + wireCount (op.items session n)) := by
  have later : ∀ {i}, i < n → i < n + wireCount (op.items session n) := fun h =>
    Nat.lt_of_lt_of_le h (Nat.le_add_right _ _)
  refine ⟨later below.pos, List.forall_mem_append.2 ⟨fun w hw => later (below.lt w hw), ?_⟩⟩
  refine Operation.result_within (later below.pos) (fun a ha w hw => ?_) fun i _ hi _ => hi
  exact later (below.operands knows a ha w hw)

/-- What admissible operations record mentions only wires that are there already. -/
theorem Admissible.scoped {session : Nat} {known : List Wire} {n : Nat} {ops : List (Operation K)}
    (h : Admissible session known n ops) (below : KnownBelow known n) :
    Scoped n (itemsOf session n ops) := by
  induction ops generalizing known n with
  | nil => trivial
  | cons op ops ih =>
    obtain ⟨-, knows, rest⟩ := h
    exact (op.scoped_items below.pos (below.operands knows) session).append
      (ih rest (below.next knows session))

/-- What is given back mentions only wires that are there at the end. -/
theorem Admissible.results_below {session : Nat} {known : List Wire} {n : Nat}
    {ops : List (Operation K)} (h : Admissible session known n ops) (below : KnownBelow known n) :
    ∀ r ∈ resultsOf session n ops, ∀ w ∈ r.mentioned,
      w.index < n + wireCount (itemsOf session n ops) := by
  induction ops generalizing known n with
  | nil => simp [resultsOf]
  | cons op ops ih =>
    obtain ⟨-, knows, rest⟩ := h
    have hnext := below.next knows session
    rw [resultsOf, itemsOf, wireCount_append, ← Nat.add_assoc, List.forall_mem_cons]
    exact ⟨fun w hw => Nat.lt_of_lt_of_le (hnext.lt w (List.mem_append_right _ hw))
      (Nat.le_add_right _ _), ih rest hnext⟩

/-! ## Values of wires in a list -/

theorem holdsFrom_listAt (zs : List (Fp K)) : HoldsFrom (listAt zs) 0 zs := by
  have h : ∀ (pre zs : List (Fp K)), HoldsFrom (listAt (pre ++ zs)) pre.length zs := by
    intro pre zs
    induction zs generalizing pre with
    | nil => trivial
    | cons x zs ih =>
      have := ih (pre ++ [x])
      rw [List.append_assoc, List.length_append] at this
      exact ⟨by simp [listAt], this⟩
  exact h [] zs

/-- A combination of wires in the list has the value that the list gives. -/
theorem HoldsFrom.eval_eq {z : Nat → Fp K} {zs : List (Fp K)} (h : HoldsFrom z 0 zs)
    {a : LinearCombination K} (below : a.Below zs.length) : a.eval z = a.eval (listAt zs) :=
  LinearCombination.eval_congr fun w hw =>
    h.agree (holdsFrom_listAt zs) (Nat.zero_le _) (by simpa using below w hw)

namespace Admissible

section
variable [prime : Fact K.modulus.Prime] {session : Nat} {known : List Wire} {z : Nat → Fp K}

/-! ## Carrying out operations -/

/-- Operations leave the values of the wires before them as they are. -/
theorem exists_append_of_execute? {zs ys : List (Fp K)} {ops : List (Operation K)}
    (h : Operation.execute? zs ops = some ys) : zs <+: ys := by
  induction ops generalizing zs with
  | nil =>
    obtain rfl : zs = ys := Option.some.inj h
    exact List.prefix_rfl
  | cons op ops ih =>
    rw [Operation.execute?] at h
    split at h
    · exact (List.prefix_append _ _).trans (ih h)
    · cases h

/-- **Rows and recipes are the computation.**  They hold on an assignment exactly if the operations
can be carried out on the values of the wires so far, and then the wires hold what this gives. -/
theorem itemsHold_iff {zs : List (Fp K)} {ops : List (Operation K)}
    (h : Admissible session known zs.length ops) (below : KnownBelow known zs.length)
    (one : z 0 = 1) (holds : HoldsFrom z 0 zs) :
    ItemsHold z zs.length (itemsOf session zs.length ops) ↔
      ∃ ys, Operation.execute? zs ops = some ys ∧ HoldsFrom z 0 ys := by
  induction ops generalizing known zs with
  | nil => simp [itemsOf, ItemsHold, Operation.execute?, holds]
  | cons op ops ih =>
    obtain ⟨accepted, knows, rest⟩ := h
    have hoperands : ∀ a ∈ op.operands, a.eval z = a.eval (listAt zs) :=
      fun a ha => holds.eval_eq (below.operands knows a ha)
    have hvalues : op.wireValues (·.eval z) = op.wireValues (·.eval (listAt zs)) :=
      Operation.wireValues_congr hoperands
    have hlen : (zs ++ op.wireValues (·.eval (listAt zs))).length =
        zs.length + wireCount (op.items session zs.length) := by
      rw [List.length_append, op.length_wireValues _ session zs.length]
    rw [itemsOf, itemsHold_append, Operation.itemsHold_iff one accepted,
      Operation.possible_congr hoperands, hvalues, Operation.execute?]
    by_cases possible : op.Possible (·.eval (listAt zs))
    · rw [if_pos possible, and_iff_right possible]
      have hrest := below.next knows session
      rw [← hlen] at rest hrest ⊢
      constructor
      · rintro ⟨hwires, hitems⟩
        refine (ih rest hrest ?_).1 hitems
        exact holdsFrom_append.2 ⟨holds, by rwa [Nat.zero_add]⟩
      · rintro ⟨ys, hys, hholds⟩
        have hstart : HoldsFrom z 0 (zs ++ op.wireValues (·.eval (listAt zs))) := by
          obtain ⟨xs, rfl⟩ := exists_append_of_execute? hys
          exact (holdsFrom_append.1 hholds).1
        refine ⟨by simpa using (holdsFrom_append.1 hstart).2, ?_⟩
        exact (ih rest hrest hstart).2 ⟨ys, hys, hholds⟩
    · rw [if_neg possible]
      simp [possible]

/-! ## What rows say -/

/-- **Rows enforce the operations.**  Where they hold, every operation is possible, and its result
has the values that it names. -/
theorem values_results {n : Nat} {ops : List (Operation K)} (h : Admissible session known n ops)
    (one : z 0 = 1) (divides : ∀ op ∈ ops, op.Divides (·.eval z))
    (rows : RowsHold z (itemsOf session n ops)) :
    ∀ p ∈ ops.zip (resultsOf session n ops),
      p.1.Possible (·.eval z) ∧ p.2.values z = p.1.values (·.eval z) := by
  induction ops generalizing known n with
  | nil => simp [resultsOf]
  | cons op ops ih =>
    obtain ⟨accepted, -, rest⟩ := h
    rw [List.forall_mem_cons] at divides
    rw [itemsOf, rowsHold_append] at rows
    obtain ⟨possible, settled⟩ := (Operation.rowsHold_iff one accepted divides.1 _ _).1 rows.1
    rw [resultsOf, List.zip_cons_cons, List.forall_mem_cons]
    exact ⟨⟨possible, Operation.values_result one accepted possible settled session⟩,
      ih rest divides.2 rows.2⟩

/-- Where rows and recipes hold, every operation is possible. -/
theorem possible_of_itemsHold {n : Nat} {ops : List (Operation K)}
    (h : Admissible session known n ops) (one : z 0 = 1)
    (items : ItemsHold z n (itemsOf session n ops)) : ∀ op ∈ ops, op.Possible (·.eval z) := by
  induction ops generalizing known n with
  | nil => simp
  | cons op ops ih =>
    obtain ⟨accepted, -, rest⟩ := h
    rw [itemsOf, itemsHold_append] at items
    rw [List.forall_mem_cons]
    exact ⟨((Operation.itemsHold_iff one accepted _ _).1 items.1).1, ih rest items.2⟩

/-- **Rows leave nothing open.**  Two assignments on which they hold and that agree on the known
wires agree on every wire that is given back, and on every other wire but the inverse of zero in a
test for zero. -/
theorem agree {z' : Nat → Fp K} {n : Nat} {ops : List (Operation K)}
    (h : Admissible session known n ops) (one : z 0 = 1) (one' : z' 0 = 1)
    (divides : ∀ op ∈ ops, op.Divides (·.eval z)) (divides' : ∀ op ∈ ops, op.Divides (·.eval z'))
    (rows : RowsHold z (itemsOf session n ops)) (rows' : RowsHold z' (itemsOf session n ops))
    (same : ∀ w ∈ known, z w.index = z' w.index) (m : Nat) :
    (∀ r ∈ resultsOf session n ops, ∀ w ∈ r.mentioned, z w.index = z' w.index) ∧
    ∀ i, n ≤ i → i < n + wireCount (itemsOf session n ops) → z i = z' i ∨
      ∃ hint ∈ hintsFrom n m (itemsOf session n ops),
        hint.output = i ∧ ∃ a, hint.recipe = .inverseOrZero a ∧ a.eval z = 0 := by
  induction ops generalizing known n m with
  | nil =>
    refine ⟨by simp [resultsOf], fun i lower upper => ?_⟩
    rw [itemsOf, wireCount] at upper
    omega
  | cons op ops ih =>
    obtain ⟨accepted, knows, rest⟩ := h
    rw [List.forall_mem_cons] at divides divides'
    rw [itemsOf, rowsHold_append] at rows rows'
    obtain ⟨-, settled⟩ := (Operation.rowsHold_iff one accepted divides.1 _ _).1 rows.1
    obtain ⟨-, settled'⟩ := (Operation.rowsHold_iff one' accepted divides'.1 _ _).1 rows'.1
    have hwire : ∀ w, w = .one ∨ w ∈ known → z w.index = z' w.index := by
      rintro w (rfl | hw)
      · exact one.trans one'.symm
      · exact same w hw
    have hoperands : ∀ a ∈ op.operands, a.eval z = a.eval z' := fun a ha =>
      LinearCombination.eval_congr fun w hw => hwire w (knows a ha w hw)
    have hown : ∀ i, n ≤ i → i < n + wireCount (op.items session n) →
        z i = z' i ∨ i = n ∧ ∃ a, op = .isZero a ∧ a.isConstant = false ∧ a.eval z = 0 :=
      fun _ => Operation.Settled.agree settled settled' hoperands
    have hmentioned : ∀ w ∈ (op.result session n).mentioned, z w.index = z' w.index := by
      refine Operation.result_within (hwire _ (.inl rfl)) (fun a ha w hw => ?_)
        fun i lower upper given => ?_
      · exact hwire w (knows a ha w hw)
      · rcases hown i lower upper with heq | ⟨rfl, a, rfl, hc, -⟩
        · exact heq
        · exact absurd ⟨hc, rfl⟩ given
    obtain ⟨hresults, hwires⟩ := ih rest divides.2 divides'.2 rows.2 rows'.2
      (by simpa [or_imp, forall_and] using ⟨same, hmentioned⟩) (m + (rowsOf (op.items session n)).length)
    refine ⟨List.forall_mem_cons.2 ⟨hmentioned, hresults⟩, fun i lower upper => ?_⟩
    rw [itemsOf, wireCount_append, ← Nat.add_assoc] at upper
    rw [itemsOf, hintsFrom_append]
    by_cases hi : i < n + wireCount (op.items session n)
    · rcases hown i lower hi with heq | ⟨rfl, a, rfl, hc, hzero⟩
      · exact .inl heq
      · refine .inr ⟨⟨i, m, .inverseOrZero a⟩, List.mem_append_left _ ?_, rfl, a, rfl, hzero⟩
        simp [Operation.items, hc, hintsFrom]
    · rcases hwires i (by omega) upper with heq | ⟨hint, hmem, hout⟩
      · exact .inl heq
      · exact .inr ⟨hint, List.mem_append_right _ hmem, hout⟩

end

end Admissible

end Groth16
