import DocAtlas.Proofs.FirstOccurrences
import DocAtlas.Registry
import Mathlib.Data.List.Induction
import Mathlib.Data.List.Nodup

/-!
# What a registry remembers

A registry gives back the first declaration of a name, whatever is declared after it and under
whichever other names. Its answers determine what it holds, up to the order. It does not matter
whether declarations are turned into others before or after they are registered.
-/

namespace DocAtlas.Registry

variable {α : Type}

/-- A name without a declaration is not among the registered names. -/
theorem get?_eq_none_iff (registry : Registry α) (name : String) :
    registry.get? name = none ↔ name ∉ registry.names := by
  simp only [get?, names, List.lookup_eq_none_iff, List.mem_map, not_exists, not_and, bne_iff_ne]
  constructor
  · intro h pair hpair heq
    exact h pair hpair heq.symm
  · intro h pair hpair heq
    exact h pair hpair heq.symm

/-- Declaring a name answers for that name only, and only if nothing did before. -/
theorem get?_register (registry : Registry α) (name other : String) (value : α) :
    (registry.register name value).get? other =
      (registry.get? other).or (if other = name then some value else none) := by
  unfold register
  split
  · next hmem =>
    by_cases h : other = name
    · subst other
      cases hget : registry.get? name with
      | none => exact absurd hmem ((get?_eq_none_iff registry name).mp hget)
      | some found => rfl
    · simp [h]
  · by_cases h : other = name
    · simp [get?, List.lookup_append, h]
    · have hne : (other == name) = false := beq_false_of_ne h
      simp [get?, List.lookup_append, List.lookup_cons, h, hne]

/-- After several declarations a name means what it meant before, or else its first declaration. -/
theorem get?_registerAll (registry : Registry α) (declarations : List (String × α))
    (name : String) :
    (registry.registerAll declarations).get? name =
      (registry.get? name).or (declarations.lookup name) := by
  induction declarations generalizing registry with
  | nil => simp [registerAll]
  | cons first rest ih =>
    obtain ⟨declared, value⟩ := first
    change ((registry.register declared value).registerAll rest).get? name = _
    rw [ih, get?_register, Option.or_assoc]
    by_cases h : name = declared
    · simp [h]
    · have hne : (name == declared) = false := beq_false_of_ne h
      simp [h, List.lookup_cons, hne]

/-- A registry filled from nothing gives back the first declaration of a name. -/
theorem get?_empty_registerAll (declarations : List (String × α)) (name : String) :
    (empty.registerAll declarations).get? name = declarations.lookup name := by
  rw [get?_registerAll]
  rfl

/-- A registry filled from nothing has the declared names in order of first declaration. -/
theorem names_empty_registerAll (declarations : List (String × α)) :
    (empty.registerAll declarations).names = (declarations.map Prod.fst).eraseDups := by
  induction declarations using List.reverseRecOn with
  | nil => rfl
  | append_singleton rest last ih =>
    have hlast : empty.registerAll (rest ++ [last]) =
        (empty.registerAll rest).register last.1 last.2 := by
      rw [registerAll, List.foldl_append]
      rfl
    rw [List.map_append, List.map_singleton, eraseDups_concat, hlast, register]
    by_cases h : last.1 ∈ rest.map Prod.fst
    · have hknown : last.1 ∈ (empty.registerAll rest).names := by
        rwa [ih, List.mem_eraseDups]
      rw [dif_pos hknown, if_pos h, ih]
    · have hnew : last.1 ∉ (empty.registerAll rest).names := by
        rwa [ih, List.mem_eraseDups]
      rw [dif_neg hnew, if_neg h, ← ih, names, List.map_append]
      rfl

/-- Declaring a name keeps the declarations before it in their places. -/
theorem entries_isPrefix_register (registry : Registry α) (name : String) (value : α) :
    registry.entries <+: (registry.register name value).entries := by
  rw [register]
  split
  · exact List.prefix_rfl
  · exact List.prefix_append _ _

/-- Declaring several names keeps the declarations before them in their places. -/
theorem entries_isPrefix_registerAll (registry : Registry α) (declarations : List (String × α)) :
    registry.entries <+: (registry.registerAll declarations).entries := by
  induction declarations generalizing registry with
  | nil => exact List.prefix_rfl
  | cons first rest ih =>
    exact (entries_isPrefix_register registry first.1 first.2).trans (ih _)

/-- What is declared first is listed first, whatever is declared after it. -/
theorem values_isPrefix_append (declarations others : List (String × α)) :
    (empty.registerAll declarations).values <+:
      (empty.registerAll (declarations ++ others)).values := by
  have happend : empty.registerAll (declarations ++ others) =
      (empty.registerAll declarations).registerAll others := by
    rw [registerAll, List.foldl_append]
    rfl
  rw [happend]
  exact (entries_isPrefix_registerAll _ others).map Prod.snd

/-- A registry answers with what it holds. -/
theorem mem_entries_iff (registry : Registry α) (name : String) (value : α) :
    (name, value) ∈ registry.entries ↔ registry.get? name = some value := by
  obtain ⟨entries, distinct⟩ := registry
  change (name, value) ∈ entries ↔ entries.lookup name = some value
  rw [List.lookup_eq_some_iff]
  constructor
  · intro hmem
    obtain ⟨before, after, rfl⟩ := List.append_of_mem hmem
    refine ⟨before, after, rfl, ?_⟩
    intro pair hpair
    rw [List.map_append, List.map_cons, List.nodup_append] at distinct
    rw [bne_iff_ne]
    exact (distinct.2.2 pair.1 (List.mem_map_of_mem hpair) name List.mem_cons_self).symm
  · intro h
    obtain ⟨before, after, rfl, _⟩ := h
    exact List.mem_append_right _ List.mem_cons_self

/-- If what is declared under a name carries the name, the names that the declarations carry are the
ones that get an answer. -/
theorem mem_map_values_iff {registry : Registry α} {key : α → String}
    (hkey : ∀ name value, registry.get? name = some value → key value = name) (name : String) :
    name ∈ registry.values.map key ↔ (registry.get? name).isSome := by
  rw [values, List.map_map, List.mem_map]
  constructor
  · intro h
    obtain ⟨⟨declared, value⟩, hpair, hname⟩ := h
    have hget := (registry.mem_entries_iff declared value).mp hpair
    have hdeclared : declared = name := (hkey declared value hget).symm.trans hname
    rw [← hdeclared, hget]
    rfl
  · intro h
    obtain ⟨value, hget⟩ := Option.isSome_iff_exists.mp h
    exact ⟨(name, value), (registry.mem_entries_iff name value).mpr hget, hkey name value hget⟩

/-- Registries that give the same answers hold the same declarations, in some order. -/
theorem values_perm {first second : Registry α}
    (h : ∀ name, first.get? name = second.get? name) : first.values.Perm second.values := by
  have hnodup (registry : Registry α) : registry.entries.Nodup :=
    List.Nodup.of_map _ registry.distinct
  have hentries : first.entries.Perm second.entries := by
    rw [List.perm_ext_iff_of_nodup (hnodup first) (hnodup second)]
    intro pair
    rw [mem_entries_iff, mem_entries_iff, h]
  exact hentries.map _

variable {β : Type}

/-- A registry with every declaration turned into another. -/
def map (g : α → β) (registry : Registry α) : Registry β :=
  { entries := registry.entries.map fun pair => (pair.1, g pair.2)
    distinct := by
      rw [List.map_map]
      exact registry.distinct }

variable (g : α → β)

/-- Turning declarations into others does not change their names. -/
theorem names_map (registry : Registry α) : (registry.map g).names = registry.names := by
  rw [names, map, List.map_map]
  rfl

/-- Looking up a name after turning declarations into others. -/
theorem get?_map (registry : Registry α) (name : String) :
    (registry.map g).get? name = (registry.get? name).map g := by
  obtain ⟨entries, distinct⟩ := registry
  change (entries.map fun pair => (pair.1, g pair.2)).lookup name = (entries.lookup name).map g
  clear distinct
  induction entries with
  | nil => rfl
  | cons first rest ih =>
    obtain ⟨known, value⟩ := first
    rw [List.map_cons, List.lookup_cons, List.lookup_cons]
    cases name == known with
    | true => rfl
    | false => exact ih

/-- Declaring a name before or after turning declarations into others. -/
theorem register_map (registry : Registry α) (name : String) (value : α) :
    (registry.map g).register name (g value) = (registry.register name value).map g := by
  by_cases h : name ∈ registry.names
  · have hmap : name ∈ (registry.map g).names := by rwa [names_map]
    rw [register, dif_pos hmap, register, dif_pos h]
  · have hmap : name ∉ (registry.map g).names := by rwa [names_map]
    rw [register, dif_neg hmap, register, dif_neg h]
    simp [map]

/-- Declaring several names before or after turning declarations into others. -/
theorem registerAll_map (registry : Registry α) (declarations : List (String × α)) :
    (registry.map g).registerAll (declarations.map fun pair => (pair.1, g pair.2)) =
      (registry.registerAll declarations).map g := by
  induction declarations generalizing registry with
  | nil => rfl
  | cons first rest ih =>
    change ((registry.map g).register first.1 (g first.2)).registerAll _ =
      ((registry.register first.1 first.2).registerAll rest).map g
    rw [register_map, ih]

/-- The declarations of a registry after turning them into others. -/
theorem values_map (registry : Registry α) : (registry.map g).values = registry.values.map g := by
  rw [values, values, map, List.map_map, List.map_map]
  rfl

end DocAtlas.Registry
