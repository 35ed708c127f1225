import Mathlib.Data.List.Nodup
import Groth16.Data.Dictionary

/-!
# Dictionaries of lists of entries

* `Dictionary.find?_eq_some_iff`: what is found is an entry.
* `Dictionary.find?_ofList`, `mem_names_ofList`: the dictionary of entries with distinct names has
  these entries, and no other names.
* `Dictionary.perm_names_ofList`: it has each of these names once.
* `Dictionary.ofList_entries`: a dictionary is that of its own entries.
* `Dictionary.entries_ofList_map`: values can be changed before or after.
-/

set_option autoImplicit false

namespace Groth16.Dictionary

universe u v

variable {α : Type u} {β : Type v}

instance [DecidableEq α] : DecidableEq (Dictionary α) := fun d e =>
  decidable_of_iff (d.entries = e.entries) ⟨ext, congrArg entries⟩

/-! ## Finding entries -/

theorem nodup_names (d : Dictionary α) : d.names.Nodup := by
  rw [names, List.Nodup, List.pairwise_map]
  exact d.ascending.imp fun h => String.ne_of_lt h

/-- What is found is an entry. -/
theorem find?_eq_some_iff {d : Dictionary α} {name : String} {value : α} :
    d.find? name = some value ↔ (name, value) ∈ d.entries := by
  rw [find?, List.lookup_eq_some_iff]
  constructor
  · rintro ⟨before, after, h, -⟩
    rw [h]
    simp
  · intro h
    obtain ⟨before, after, h⟩ := List.append_of_mem h
    refine ⟨before, after, h, fun e he => ?_⟩
    have hdistinct := d.nodup_names
    rw [names, h, List.map_append, List.nodup_append] at hdistinct
    have hne : e.1 ≠ name := hdistinct.2.2 _ (List.mem_map_of_mem he) _ List.mem_cons_self
    exact bne_iff_ne.2 hne.symm

/-- A name has an entry if something is found for it. -/
theorem mem_names_iff {d : Dictionary α} {name : String} :
    name ∈ d.names ↔ d.contains name = true := by
  rw [contains, find?, names]
  induction d.entries with
  | nil => simp
  | cons e es ih =>
    obtain ⟨k, v⟩ := e
    rw [List.map_cons, List.mem_cons, ih, List.lookup_cons]
    by_cases h : name = k
    · simp [h]
    · rw [beq_false_of_ne h]
      simp [h]

/-! ## Entering a list -/

/-- The dictionary with entries set one after the other. -/
def insertAll (d : Dictionary α) (es : List (String × α)) : Dictionary α :=
  es.foldl (fun d e => d.insert e.1 e.2) d

theorem insertAll_cons (d : Dictionary α) (e : String × α) (es : List (String × α)) :
    d.insertAll (e :: es) = (d.insert e.1 e.2).insertAll es := rfl

/-- Names that are not set keep their values. -/
theorem find?_insertAll_of_notMem {name : String} {es : List (String × α)}
    (h : name ∉ es.map (·.1)) (d : Dictionary α) : (d.insertAll es).find? name = d.find? name := by
  induction es generalizing d with
  | nil => rfl
  | cons e es ih =>
    rw [List.map_cons, List.mem_cons, not_or] at h
    rw [insertAll_cons, ih h.2, find?_insert, if_neg h.1]

/-- A name that is set once gets its value. -/
theorem find?_insertAll_of_mem {es : List (String × α)} (distinct : (es.map (·.1)).Nodup)
    {e : String × α} (mem : e ∈ es) (d : Dictionary α) :
    (d.insertAll es).find? e.1 = some e.2 := by
  induction es generalizing d with
  | nil => cases mem
  | cons x es ih =>
    rw [List.map_cons, List.nodup_cons] at distinct
    rw [insertAll_cons]
    rcases List.mem_cons.1 mem with rfl | mem
    · rw [find?_insertAll_of_notMem distinct.1, find?_insert, if_pos rfl]
    · exact ih distinct.2 mem _

/-- The dictionary of entries with distinct names has these entries. -/
theorem find?_ofList {es : List (String × α)} (distinct : (es.map (·.1)).Nodup) {e : String × α}
    (mem : e ∈ es) : (ofList es).find? e.1 = some e.2 :=
  find?_insertAll_of_mem distinct mem empty

/-- It has no names but theirs. -/
theorem find?_ofList_of_notMem {es : List (String × α)} {name : String}
    (h : name ∉ es.map (·.1)) : (ofList es).find? name = none :=
  find?_insertAll_of_notMem h empty

theorem mem_names_ofList {es : List (String × α)} (distinct : (es.map (·.1)).Nodup)
    {name : String} : name ∈ (ofList es).names ↔ name ∈ es.map (·.1) := by
  rw [mem_names_iff, contains]
  by_cases hname : name ∈ es.map (·.1)
  · obtain ⟨e, he, rfl⟩ := List.mem_map.1 hname
    rw [find?_ofList distinct he]
    exact iff_of_true rfl hname
  · rw [find?_ofList_of_notMem hname]
    exact iff_of_false Bool.false_ne_true hname

/-- It has each of their names once. -/
theorem perm_names_ofList {es : List (String × α)} (distinct : (es.map (·.1)).Nodup) :
    (ofList es).names.Perm (es.map (·.1)) :=
  (List.perm_ext_iff_of_nodup (nodup_names _) distinct).2 fun _ => mem_names_ofList distinct

/-! ## Entries in order -/

/-- A name behind all others is entered behind them. -/
theorem insertEntry_of_forall_lt {name : String} {value : α} {es : List (String × α)}
    (h : ∀ e ∈ es, e.1 < name) : insertEntry name value es = es ++ [(name, value)] := by
  induction es with
  | nil => rfl
  | cons e es ih =>
    rw [List.forall_mem_cons] at h
    rw [insertEntry, if_neg (String.lt_asymm h.1), if_neg (String.ne_of_lt h.1).symm, ih h.2]
    rfl

/-- **A dictionary is that of its own entries.** -/
theorem ofList_entries (d : Dictionary α) : ofList d.entries = d := by
  have hall : ∀ (es : List (String × α)) (acc : Dictionary α),
      (acc.entries ++ es).Pairwise (fun a b => a.1 < b.1) →
        (acc.insertAll es).entries = acc.entries ++ es := by
    intro es
    induction es with
    | nil =>
      intro acc _
      exact (List.append_nil _).symm
    | cons e es ih =>
      intro acc ascending
      have hlast : ∀ x ∈ acc.entries, x.1 < e.1 := fun x hx =>
        (List.pairwise_append.1 ascending).2.2 x hx e List.mem_cons_self
      have hnext : (acc.insert e.1 e.2).entries = acc.entries ++ [e] :=
        insertEntry_of_forall_lt hlast
      rw [insertAll_cons, ih, hnext, List.append_assoc, List.singleton_append]
      rwa [hnext, List.append_assoc, List.singleton_append]
  exact ext (hall d.entries empty d.ascending)

/-! ## Changing values -/

theorem insertEntry_map (f : α → β) (name : String) (value : α) (es : List (String × α)) :
    insertEntry name (f value) (es.map fun e => (e.1, f e.2)) =
      (insertEntry name value es).map fun e => (e.1, f e.2) := by
  induction es with
  | nil => rfl
  | cons e es ih =>
    obtain ⟨k, v⟩ := e
    rw [List.map_cons, insertEntry, insertEntry, ih]
    split
    · rfl
    · split
      · rfl
      · rfl

/-- Values can be changed before or after. -/
theorem entries_ofList_map (f : α → β) (es : List (String × α)) :
    (ofList (es.map fun e => (e.1, f e.2))).entries =
      (ofList es).entries.map fun e => (e.1, f e.2) := by
  have hall : ∀ (d : Dictionary α) (d' : Dictionary β),
      d'.entries = d.entries.map (fun e => (e.1, f e.2)) →
        (d'.insertAll (es.map fun e => (e.1, f e.2))).entries =
          (d.insertAll es).entries.map fun e => (e.1, f e.2) := by
    induction es with
    | nil => exact fun _ _ h => h
    | cons e es ih =>
      intro d d' h
      rw [List.map_cons, insertAll_cons, insertAll_cons]
      refine ih _ _ ?_
      show insertEntry e.1 (f e.2) d'.entries = _
      rw [h, insertEntry_map]
      rfl
  exact hall empty empty rfl

end Groth16.Dictionary
