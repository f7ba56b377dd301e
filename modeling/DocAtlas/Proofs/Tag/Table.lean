import DocAtlas.Proofs.FirstOccurrences
import DocAtlas.Tag.Table
import Mathlib.Data.List.Induction

/-!
# Tables group occurrences

The table of a sequence of occurrences has one entry per name. The names stand in order of first
appearance, and the entry of a name holds its occurrences in their order.
-/

namespace DocAtlas.Tag.Table

variable {names : List String} {found : String → List Occurrence} {o : Occurrence}

/-- Occurrences by name, the names in order of first appearance. -/
def grouped (occurrences : List Occurrence) : Table :=
  (occurrences.map Occurrence.name).eraseDups.map fun name =>
    (name, occurrences.filter (·.name = name))

/-- The names of grouped occurrences. -/
theorem map_fst_grouped (occurrences : List Occurrence) :
    (grouped occurrences).map Prod.fst = (occurrences.map Occurrence.name).eraseDups := by
  rw [grouped, List.map_map]
  exact List.map_id _

/-- An occurrence leaves the groups of other names as they are. -/
theorem map_append_of_notMem (h : o.name ∉ names) :
    names.map (fun name => (name, found name ++ if o.name = name then [o] else [])) =
      names.map fun name => (name, found name) := by
  refine List.map_congr_left fun name hname => ?_
  have hne : o.name ≠ name := fun heq => h (heq ▸ hname)
  rw [if_neg hne, List.append_nil]

/-- An occurrence of a new name gets an entry at the end. -/
theorem add_of_notMem (h : o.name ∉ names) :
    add o (names.map fun name => (name, found name)) =
      names.map (fun name => (name, found name)) ++ [(o.name, [o])] := by
  induction names with
  | nil => rfl
  | cons first rest ih =>
    rw [List.mem_cons, not_or] at h
    rw [List.map_cons, add, if_neg (Ne.symm h.1), ih h.2, List.cons_append]

/-- An occurrence of a known name is put behind the others of that name. -/
theorem add_of_mem (hnodup : names.Nodup) (h : o.name ∈ names) :
    add o (names.map fun name => (name, found name)) =
      names.map fun name => (name, found name ++ if o.name = name then [o] else []) := by
  induction names with
  | nil => exact absurd h List.not_mem_nil
  | cons first rest ih =>
    rw [List.nodup_cons] at hnodup
    rw [List.map_cons, List.map_cons, add]
    by_cases hfirst : first = o.name
    · rw [if_pos hfirst, if_pos hfirst.symm, map_append_of_notMem (hfirst ▸ hnodup.1)]
    · have hmem := (List.mem_cons.mp h).resolve_left (Ne.symm hfirst)
      rw [if_neg hfirst, if_neg (Ne.symm hfirst), List.append_nil, ih hnodup.2 hmem]

/-- No occurrence has a name that is not among the names of the occurrences. -/
theorem filter_name_eq_nil {occurrences : List Occurrence} {name : String}
    (h : name ∉ occurrences.map Occurrence.name) : occurrences.filter (·.name = name) = [] := by
  rw [List.filter_eq_nil_iff]
  intro other hother heq
  exact h (of_decide_eq_true heq ▸ List.mem_map_of_mem hother)

/-- A further occurrence joins its group. -/
theorem add_grouped (occurrences : List Occurrence) (o : Occurrence) :
    add o (grouped occurrences) = grouped (occurrences ++ [o]) := by
  have hfilter (name : String) : (occurrences ++ [o]).filter (·.name = name) =
      occurrences.filter (·.name = name) ++ if o.name = name then [o] else [] := by
    rw [List.filter_append]
    by_cases h : o.name = name <;> simp [h]
  simp only [grouped, hfilter]
  rw [List.map_append, List.map_singleton, eraseDups_concat]
  by_cases h : o.name ∈ occurrences.map Occurrence.name
  · rw [if_pos h]
    exact add_of_mem (nodup_eraseDups _) (List.mem_eraseDups.mpr h)
  · have hnames : o.name ∉ (occurrences.map Occurrence.name).eraseDups :=
      fun hmem => h (List.mem_eraseDups.mp hmem)
    rw [if_neg h, List.map_append, map_append_of_notMem hnames, List.map_singleton,
      filter_name_eq_nil h, if_pos rfl, List.nil_append]
    exact add_of_notMem hnames

/-- The group of a name holds occurrences of that name, at least one. -/
theorem of_mem_grouped {occurrences : List Occurrence} {entry : String × List Occurrence}
    (h : entry ∈ grouped occurrences) :
    entry.2 ≠ [] ∧ ∀ o ∈ entry.2, o ∈ occurrences ∧ o.name = entry.1 := by
  obtain ⟨name, hname, rfl⟩ := List.mem_map.mp h
  obtain ⟨o, ho, rfl⟩ := List.mem_map.mp (List.mem_eraseDups.mp hname)
  constructor
  · exact List.ne_nil_of_mem (List.mem_filter.mpr ⟨ho, decide_eq_true rfl⟩)
  · intro other hother
    obtain ⟨hmem, heq⟩ := List.mem_filter.mp hother
    exact ⟨hmem, of_decide_eq_true heq⟩

/-- The table of a sequence of occurrences groups them by name. -/
theorem ofOccurrences_eq_grouped (occurrences : List Occurrence) :
    ofOccurrences occurrences = grouped occurrences := by
  induction occurrences using List.reverseRecOn with
  | nil => rfl
  | append_singleton rest o ih =>
    rw [← add_grouped, ← ih, ofOccurrences, ofOccurrences, List.foldl_append]
    rfl

/-- The group of a name holds all its occurrences. -/
theorem occurrences_grouped (occurrences : List Occurrence) (name : String) :
    (grouped occurrences).occurrences name = occurrences.filter (·.name = name) := by
  have hlookup (names : List String) : (names.map fun known =>
      (known, occurrences.filter (·.name = known))).lookup name =
        if name ∈ names then some (occurrences.filter (·.name = name)) else none := by
    induction names with
    | nil => rfl
    | cons first rest ih =>
      by_cases h : name = first
      · simp [h]
      · have hne : (name == first) = false := beq_false_of_ne h
        simp [List.lookup_cons, h, hne, ih]
  rw [Table.occurrences, grouped, hlookup]
  split
  · rfl
  · next h =>
    rw [filter_name_eq_nil fun hmem => h (List.mem_eraseDups.mpr hmem)]
    rfl

/-- The values of a name in the table of a sequence of occurrences. -/
theorem values_ofOccurrences (occurrences : List Occurrence) (name : String) :
    (ofOccurrences occurrences).values name =
      (occurrences.filter (·.name = name)).map Occurrence.description := by
  rw [values, ofOccurrences_eq_grouped, occurrences_grouped]

/-- A table has an entry for every name that has values, and for no other. -/
theorem mem_map_fst_ofOccurrences_iff (occurrences : List Occurrence) (name : String) :
    name ∈ (ofOccurrences occurrences).map Prod.fst ↔
      (ofOccurrences occurrences).values name ≠ [] := by
  rw [values_ofOccurrences, ofOccurrences_eq_grouped, map_fst_grouped, List.mem_eraseDups, ne_eq,
    List.map_eq_nil_iff, List.filter_eq_nil_iff]
  simp [eq_comm]

/-- A name with values has a first value, unless one of its values is empty. -/
theorem isSome_value?_iff {table : Table} {name : String} (h : "" ∉ table.values name) :
    (table.value? name).isSome = true ↔ table.values name ≠ [] := by
  rw [value?]
  cases hvalues : table.values name with
  | nil => simp
  | cons value rest =>
    have hne : value ≠ "" := fun heq => h (by rw [hvalues, heq]; exact List.mem_cons_self)
    simp [Option.filter_some, hne]

end DocAtlas.Tag.Table
