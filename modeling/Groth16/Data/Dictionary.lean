/-!
# Dictionaries

Finite maps from names to values. A dictionary is the list of its entries in ascending order of
their names, each name once, so that two dictionaries with the same entries are equal and the
order in which names were set leaves no trace.

* `Dictionary.insert`: sets a name; an earlier value of it is replaced.
* `Dictionary.find?`: the value of a name.
* `Dictionary.names`: the names in ascending order.
-/

set_option autoImplicit false

namespace Groth16

universe u v

/-- A finite map from names to values. -/
structure Dictionary (α : Type u) where
  /-- The entries, by ascending name. -/
  entries : List (String × α)
  /-- Every name is less than the names behind it. -/
  ascending : entries.Pairwise fun a b => a.1 < b.1

namespace Dictionary

variable {α : Type u} {β : Type v}

/-- The dictionary without entries. -/
def empty : Dictionary α := ⟨[], .nil⟩

instance : Inhabited (Dictionary α) := ⟨empty⟩

instance : EmptyCollection (Dictionary α) := ⟨empty⟩

/-- The entries with `name` set, in the place where it belongs. -/
def insertEntry (name : String) (value : α) : List (String × α) → List (String × α)
  | [] => [(name, value)]
  | (k, v) :: rest =>
    if name < k then (name, value) :: (k, v) :: rest
    else if name = k then (name, value) :: rest
    else (k, v) :: insertEntry name value rest

theorem mem_insertEntry_name {name : String} {value : α} {es : List (String × α)} {e : String × α}
    (h : e ∈ insertEntry name value es) : e.1 = name ∨ e ∈ es := by
  induction es with
  | nil =>
    simp only [insertEntry, List.mem_singleton] at h
    exact .inl (h ▸ rfl)
  | cons x rest ih =>
    simp only [insertEntry] at h
    split at h
    · rcases List.mem_cons.1 h with rfl | h
      · exact .inl rfl
      · exact .inr h
    · split at h
      · rcases List.mem_cons.1 h with rfl | h
        · exact .inl rfl
        · exact .inr (List.mem_cons_of_mem _ h)
      · rcases List.mem_cons.1 h with rfl | h
        · exact .inr List.mem_cons_self
        · exact (ih h).imp id (List.mem_cons_of_mem _)

theorem ascending_insertEntry (name : String) (value : α) {es : List (String × α)}
    (h : es.Pairwise fun a b => a.1 < b.1) :
    (insertEntry name value es).Pairwise fun a b => a.1 < b.1 := by
  induction es with
  | nil => simp [insertEntry]
  | cons x rest ih =>
    obtain ⟨k, v⟩ := x
    obtain ⟨first, others⟩ := List.pairwise_cons.1 h
    simp only [insertEntry]
    split
    · rename_i less
      refine List.pairwise_cons.2 ⟨fun b hb => ?_, h⟩
      rcases List.mem_cons.1 hb with rfl | hb
      · exact less
      · exact String.lt_trans less (first b hb)
    · split
      · rename_i same
        exact List.pairwise_cons.2 ⟨fun b hb => by simpa [same] using first b hb, others⟩
      · rename_i notLess different
        refine List.pairwise_cons.2 ⟨fun b hb => ?_, ih others⟩
        rcases mem_insertEntry_name hb with e | hb
        · rw [e]
          exact String.not_le.1 fun le =>
            different (String.le_antisymm le (String.not_lt.1 notLess))
        · exact first b hb

/-- Sets a name to a value. -/
def insert (d : Dictionary α) (name : String) (value : α) : Dictionary α :=
  ⟨insertEntry name value d.entries, ascending_insertEntry name value d.ascending⟩

/-- The dictionary of a list of entries; of two with one name the later counts. -/
def ofList (es : List (String × α)) : Dictionary α :=
  es.foldl (fun d e => d.insert e.1 e.2) empty

/-- The value of a name. -/
def find? (d : Dictionary α) (name : String) : Option α := d.entries.lookup name

/-- The name has a value. -/
def contains (d : Dictionary α) (name : String) : Bool := (d.find? name).isSome

/-- The names, ascending. -/
def names (d : Dictionary α) : List String := d.entries.map (·.1)

/-- How many names have a value. -/
def size (d : Dictionary α) : Nat := d.entries.length

theorem ext {d e : Dictionary α} (h : d.entries = e.entries) : d = e := by
  cases d; cases e; cases h; rfl

theorem lookup_cons_pair (k other : String) (v : α) (es : List (String × α)) :
    List.lookup other ((k, v) :: es) = if other = k then some v else es.lookup other := by
  rw [List.lookup_cons]
  by_cases h : other = k
  · rw [if_pos h, beq_iff_eq.2 h]
  · rw [if_neg h, beq_eq_false_iff_ne.2 h]

theorem lookup_insertEntry (name other : String) (value : α) (es : List (String × α)) :
    (insertEntry name value es).lookup other =
      if other = name then some value else es.lookup other := by
  induction es with
  | nil => rw [insertEntry, lookup_cons_pair]
  | cons x rest ih =>
    obtain ⟨k, v⟩ := x
    rw [insertEntry]
    split
    · rw [lookup_cons_pair]
    · split
      · next same =>
        subst same
        rw [lookup_cons_pair, lookup_cons_pair]
        split <;> rfl
      · next different =>
        rw [lookup_cons_pair, lookup_cons_pair, ih]
        by_cases h : other = k
        · subst h
          rw [if_pos rfl, if_pos rfl, if_neg (Ne.symm different)]
        · rw [if_neg h, if_neg h]

/-- After a name is set, it has that value, and every other name has the value it had. -/
theorem find?_insert (d : Dictionary α) (name other : String) (value : α) :
    (d.insert name value).find? other = if other = name then some value else d.find? other :=
  lookup_insertEntry name other value d.entries

end Dictionary

end Groth16
