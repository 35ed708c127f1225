import Groth16.Circuit.ConstraintSystem
import Groth16.Circuit.Operation

/-!
# Other handles for the same wires

A handle carries the number of the compilation that made it, besides the position and the role of the
wire.  This file exchanges the handles in everything that is made of them, and shows that the exchange
goes well with the arithmetic of combinations and leaves the bytes of a system as they are.

* `Relabeling`: handles for handles, of the same position and role.
* `Relabeling.anonymous`: handles without the number of their compilation.
* `Relabeling.rename f`: handles of compilation `n` become those of compilation `f n`.
* `relabel`, for terms, combinations, constraints, recipes, hints, systems and operations.
* `ConstraintSystem.stream_relabel`: the bytes of a system say nothing about compilations.
-/

set_option autoImplicit false

namespace Groth16

variable {K : PrimeField}

/-! ## Definitions -/

/-- Handles for handles, of the same position and role.  The one-wire stays what it is. -/
structure Relabeling where
  /-- The handle for a handle. -/
  wire : Wire → Wire
  /-- The position stays. -/
  index_wire : ∀ w, (wire w).index = w.index
  /-- The role stays. -/
  role_wire : ∀ w, (wire w).role = w.role
  /-- The one-wire stays. -/
  wire_one : wire .one = .one

namespace Relabeling

attribute [simp] index_wire role_wire wire_one

/-- Handles without the number of their compilation. -/
def anonymous : Relabeling where
  wire w := { w with session := 0 }
  index_wire _ := rfl
  role_wire _ := rfl
  wire_one := rfl

/-- Handles of compilation `n` become those of compilation `f n`; the one-wire belongs to all
compilations. -/
def rename (f : Nat → Nat) : Relabeling where
  wire w := if w.role = .constant then w else { w with session := f w.session }
  index_wire w := by
    split
    · rfl
    · rfl
  role_wire w := by
    split
    · rfl
    · rfl
  wire_one := rfl

end Relabeling

/-- The term with another handle. -/
def Term.relabel (g : Relabeling) (t : Term K) : Term K := ⟨t.coeff, g.wire t.wire⟩

/-- The combination with other handles. -/
def LinearCombination.relabel (g : Relabeling) (a : LinearCombination K) : LinearCombination K :=
  ⟨a.terms.map (Term.relabel g)⟩

/-- The constraint with other handles. -/
def Constraint.relabel (g : Relabeling) (c : Constraint K) : Constraint K :=
  ⟨c.a.relabel g, c.b.relabel g, c.c.relabel g, c.tag⟩

/-- The recipe with other handles. -/
def Recipe.relabel (g : Relabeling) : Recipe K → Recipe K
  | .product a b => .product (a.relabel g) (b.relabel g)
  | .inverse a => .inverse (a.relabel g)
  | .quotient a b => .quotient (a.relabel g) (b.relabel g)
  | .inverseOrZero a => .inverseOrZero (a.relabel g)
  | .isZero a => .isZero (a.relabel g)
  | .bit a i => .bit (a.relabel g) i

/-- The hint with other handles. -/
def Hint.relabel (g : Relabeling) (h : Hint K) : Hint K := ⟨h.output, h.row, h.recipe.relabel g⟩

/-- The system with other handles. -/
def ConstraintSystem.relabel (g : Relabeling) (s : ConstraintSystem K) : ConstraintSystem K :=
  { s with
    constraints := s.constraints.map (Constraint.relabel g)
    hints := s.hints.map (Hint.relabel g) }

/-- The operation with other handles. -/
def Operation.relabel (g : Relabeling) : Operation K → Operation K
  | constant k => constant k
  | add a b => add (a.relabel g) (b.relabel g)
  | sub a b => sub (a.relabel g) (b.relabel g)
  | neg a => neg (a.relabel g)
  | scale a k => scale (a.relabel g) k
  | sum as => sum (as.map (·.relabel g))
  | mul a b => mul (a.relabel g) (b.relabel g)
  | mulMany as => mulMany (as.map (·.relabel g))
  | assertEqual a b => assertEqual (a.relabel g) (b.relabel g)
  | inverse a => inverse (a.relabel g)
  | div a b => div (a.relabel g) (b.relabel g)
  | assertBoolean a => assertBoolean (a.relabel g)
  | select bit x y => select (bit.relabel g) (x.relabel g) (y.relabel g)
  | isZero a => isZero (a.relabel g)
  | toBinary a n => toBinary (a.relabel g) n
  | fromBinary as => fromBinary (as.map (·.relabel g))

/-- The result with other handles. -/
def Result.relabel (g : Relabeling) : Result K → Result K
  | .value a => .value (a.relabel g)
  | .wire w => .wire (g.wire w)
  | .wires ws => .wires (ws.map g.wire)
  | .asserted => .asserted

/-! ## Combinations -/

namespace LinearCombination

variable (g : Relabeling)

theorem addTerm_relabel (t : Term K) (ts : List (Term K)) :
    addTerm (t.relabel g) (ts.map (Term.relabel g)) = (addTerm t ts).map (Term.relabel g) := by
  induction ts with
  | nil => rfl
  | cons u us ih =>
    have hindex : ∀ v : Term K, (v.relabel g).wire.index = v.wire.index := fun v =>
      g.index_wire v.wire
    rw [List.map_cons, addTerm, addTerm, hindex, hindex, ih]
    split
    · rfl
    · split
      · rfl
      · rfl

@[simp] theorem relabel_ofTerms (ts : List (Term K)) :
    (ofTerms ts).relabel g = ofTerms (ts.map (Term.relabel g)) := by
  have hsorted : (ts.map (Term.relabel g)).foldr addTerm [] =
      (ts.foldr addTerm []).map (Term.relabel g) := by
    induction ts with
    | nil => rfl
    | cons t ts ih => rw [List.map_cons, List.foldr_cons, List.foldr_cons, ih, addTerm_relabel]
  rw [ofTerms, ofTerms, hsorted, relabel, List.filter_map]
  rfl

@[simp] theorem relabel_ofWire (w : Wire) :
    (ofWire w : LinearCombination K).relabel g = ofWire (g.wire w) := rfl

@[simp] theorem relabel_constant (k : Fp K) : (constant k).relabel g = constant k := by
  rw [constant, relabel_ofTerms, List.map_cons, Term.relabel, g.wire_one]
  rfl

@[simp] theorem relabel_add (a b : LinearCombination K) :
    (a + b).relabel g = a.relabel g + b.relabel g := by
  change (ofTerms (a.terms ++ b.terms)).relabel g = ofTerms _
  rw [relabel_ofTerms, List.map_append]
  rfl

@[simp] theorem relabel_neg (a : LinearCombination K) : (-a).relabel g = -a.relabel g := by
  change (⟨(a.terms.map _).map _⟩ : LinearCombination K) = ⟨(a.terms.map _).map _⟩
  rw [List.map_map, List.map_map]
  rfl

@[simp] theorem relabel_sub (a b : LinearCombination K) :
    (a - b).relabel g = a.relabel g - b.relabel g := by
  change (a + -b).relabel g = a.relabel g + -b.relabel g
  rw [relabel_add, relabel_neg]

@[simp] theorem relabel_scale (a : LinearCombination K) (k : Fp K) :
    (a.scale k).relabel g = (a.relabel g).scale k := by
  rw [scale, scale]
  split
  · rfl
  · rw [relabel, relabel, List.map_map, List.map_map]
    rfl

@[simp] theorem wires_relabel (a : LinearCombination K) :
    (a.relabel g).wires = a.wires.map g.wire := by
  rw [wires, wires, relabel, List.map_map, List.map_map]
  rfl

@[simp] theorem isEmpty_relabel (a : LinearCombination K) : (a.relabel g).isEmpty = a.isEmpty :=
  List.isEmpty_map

@[simp] theorem asConstant?_relabel (a : LinearCombination K) :
    (a.relabel g).asConstant? = a.asConstant? := by
  obtain ⟨ts⟩ := a
  match ts with
  | [] => rfl
  | [t] =>
    change (if (g.wire t.wire).index = 0 then _ else _) = if t.wire.index = 0 then _ else _
    rw [g.index_wire]
    rfl
  | _ :: _ :: _ => rfl

/-! ## Bytes -/

@[simp] theorem termStream_relabel (t : Term K) : termStream (t.relabel g) = termStream t := by
  rw [termStream, termStream, Term.relabel, g.index_wire, g.role_wire]

@[simp] theorem stream_relabel (a : LinearCombination K) : (a.relabel g).stream = a.stream := by
  rw [stream, stream, relabel, List.length_map, List.flatMap_map]
  simp only [termStream_relabel]

end LinearCombination

@[simp] theorem Constraint.stream_relabel (g : Relabeling) (c : Constraint K) :
    (c.relabel g).stream = c.stream := by
  simp only [stream, relabel, LinearCombination.stream_relabel]

@[simp] theorem Recipe.code_relabel (g : Relabeling) (r : Recipe K) :
    (r.relabel g).code = r.code := by
  cases r <;> rfl

@[simp] theorem Recipe.bitIndex?_relabel (g : Relabeling) (r : Recipe K) :
    (r.relabel g).bitIndex? = r.bitIndex? := by
  cases r <;> rfl

@[simp] theorem Recipe.operands_relabel (g : Relabeling) (r : Recipe K) :
    (r.relabel g).operands = r.operands.map (·.relabel g) := by
  cases r <;> rfl

@[simp] theorem Hint.stream_relabel (g : Relabeling) (h : Hint K) :
    (h.relabel g).stream = h.stream := by
  simp only [stream, relabel, Recipe.code_relabel, Recipe.bitIndex?_relabel,
    Recipe.operands_relabel, List.flatMap_map, LinearCombination.stream_relabel]

/-- **The bytes of a system say nothing about compilations.** -/
theorem ConstraintSystem.stream_relabel (g : Relabeling) (s : ConstraintSystem K) :
    (s.relabel g).stream = s.stream := by
  simp only [stream, relabel, Array.size_map, Array.toList_map, List.flatMap_map,
    Constraint.stream_relabel, Hint.stream_relabel]

end Groth16
