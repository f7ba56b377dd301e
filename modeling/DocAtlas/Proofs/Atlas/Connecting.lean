import DocAtlas.Atlas.Link
import DocAtlas.Proofs.FirstOccurrences
import Mathlib.Data.List.Induction

/-!
# Connecting entries tie by tie

The second pass of linking goes through the entries twice, first with their references and then with
their files. Whatever tie comes up is recorded at once: at the entry in its place, and at the last entry
with the identity of the owner. An edge that is there already is not appended again. In the end every
list of edges holds those of all its ties, each in the place of its first occurrence, and these are the
edges that connecting gives the entries.
-/

namespace DocAtlas

/-- Append an edge unless it is there already. -/
def addEdge (edge : Edge) (edges : List Edge) : List Edge :=
  if edge ∈ edges then edges else edges ++ [edge]

/-- The edge of a further step that passes a test is appended to those that are kept once. -/
theorem eraseDups_map_filter_concat {α : Type} (p : α → Bool) (edge : α → Edge) (steps : List α)
    (step : α) :
    (((steps ++ [step]).filter p).map edge).eraseDups =
      if p step then addEdge (edge step) ((steps.filter p).map edge).eraseDups
      else ((steps.filter p).map edge).eraseDups := by
  rw [List.filter_append, List.map_append]
  split
  · next hstep =>
    rw [List.filter_cons_of_pos hstep, addEdge]
    simp only [List.mem_eraseDups]
    exact eraseDups_concat _ _
  · next hstep => rw [List.filter_cons_of_neg hstep, List.filter_nil, List.map_nil, List.append_nil]

/-- Is the entry in a place the last one of its identity? -/
def IsLast (entries : List Entry) (place : ℕ) (entry : Entry) : Prop :=
  entry.id ∉ (entries.drop (place + 1)).map Entry.id

instance (entries : List Entry) (place : ℕ) (entry : Entry) : Decidable (IsLast entries place entry) :=
  inferInstanceAs (Decidable (_ ∉ _))

/-- Record a tie of the entry in a place at both ends. -/
def record (entries : List Entry) (step : ℕ × Tie) : List Entry :=
  entries.mapIdx fun place entry =>
    { entry with
      parents := if step.1 = place then addEdge step.2.toOwner entry.parents else entry.parents
      children :=
        if step.2.owner = entry.id ∧ IsLast entries place entry then
          addEdge step.2.toMember entry.children
        else entry.children }

/-- The entry in a place with the edges of the ties that come up, each once. -/
def recordedAt (entries : List Entry) (steps : List (ℕ × Tie)) (place : ℕ) (entry : Entry) : Entry :=
  { entry with
    parents := ((steps.filter (·.1 = place)).map (·.2.toOwner)).eraseDups
    children :=
      if IsLast entries place entry then
        ((steps.filter (·.2.owner = entry.id)).map (·.2.toMember)).eraseDups
      else [] }

/-- All entries with the edges of the ties that come up. -/
def recorded (entries : List Entry) (steps : List (ℕ × Tie)) : List Entry :=
  entries.mapIdx (recordedAt entries steps)

/-- The last entries of their identities stay the last ones. -/
theorem isLast_recorded (entries : List Entry) (steps : List (ℕ × Tie)) (place : ℕ) (entry : Entry) :
    IsLast (recorded entries steps) place (recordedAt entries steps place entry) ↔
      IsLast entries place entry := by
  have hids : (recorded entries steps).map Entry.id = entries.map Entry.id := by
    refine List.ext_getElem? fun place => ?_
    rw [recorded, List.getElem?_map, List.getElem?_mapIdx, List.getElem?_map, Option.map_map]
    rfl
  rw [IsLast, IsLast, List.map_drop, List.map_drop, hids, recordedAt]

/-- One more tie is recorded on top of the others. -/
theorem record_recorded (entries : List Entry) (steps : List (ℕ × Tie)) (step : ℕ × Tie) :
    record (recorded entries steps) step = recorded entries (steps ++ [step]) := by
  refine List.ext_getElem? fun place => ?_
  rw [record, List.getElem?_mapIdx, recorded, List.getElem?_mapIdx, Option.map_map, recorded,
    List.getElem?_mapIdx]
  refine congrArg (Option.map · _) (funext fun entry => ?_)
  have hlast := isLast_recorded entries steps place entry
  rw [recorded] at hlast
  simp only [Function.comp_apply, hlast]
  simp only [recordedAt, eraseDups_map_filter_concat, decide_eq_true_eq]
  by_cases hplace : IsLast entries place entry <;> simp [hplace]

/-- Ties that are recorded one after the other give entries without edges those of all ties. -/
theorem foldl_record {entries : List Entry}
    (hfresh : ∀ entry ∈ entries, entry.parents = [] ∧ entry.children = []) (steps : List (ℕ × Tie)) :
    steps.foldl record entries = recorded entries steps := by
  induction steps using List.reverseRecOn with
  | nil =>
    refine List.ext_getElem? fun place => ?_
    rw [List.foldl_nil, recorded, List.getElem?_mapIdx]
    cases hentry : entries[place]? with
    | none => rfl
    | some entry =>
      obtain ⟨hparents, hchildren⟩ := hfresh entry (List.mem_of_getElem? hentry)
      have hsame : recordedAt entries [] place entry = entry := by
        simp only [recordedAt, List.filter_nil, List.map_nil, List.eraseDups_nil, ite_self]
        cases entry
        simp_all
      rw [Option.map_some, hsame]
  | append_singleton steps step ih =>
    rw [List.foldl_append, List.foldl_cons, List.foldl_nil, ih, record_recorded]

/-! ## The ties that come up -/

/-- Things of entries, with the places of the entries. -/
def placed {α : Type} (things : Entry → List α) (start : ℕ) (entries : List Entry) : List (ℕ × α) :=
  (entries.zipIdx start).flatMap fun (entry, place) => (things entry).map (place, ·)

section

variable {α : Type} (things : Entry → List α)

/-- Without their places these are the things of the entries, one entry after the other. -/
theorem map_snd_placed (start : ℕ) (entries : List Entry) :
    (placed things start entries).map Prod.snd = entries.flatMap things := by
  induction entries generalizing start with
  | nil => rfl
  | cons entry rest ih =>
    have hrest := ih (start + 1)
    rw [placed] at hrest ⊢
    rw [List.zipIdx_cons, List.flatMap_cons, List.map_append, hrest, List.flatMap_cons, List.map_map]
    exact congrArg (· ++ _) (List.map_id _)

/-- In the place of an entry there are its things. -/
theorem filter_placed (start : ℕ) {index : ℕ} {entries : List Entry} {entry : Entry}
    (h : entries[index]? = some entry) :
    (placed things start entries).filter (·.1 = start + index) =
      (things entry).map (start + index, ·) := by
  induction entries generalizing start index with
  | nil => cases h
  | cons first rest ih =>
    have hcons : placed things start (first :: rest) =
        (things first).map (start, ·) ++ placed things (start + 1) rest := by
      rw [placed, List.zipIdx_cons, List.flatMap_cons]
      rfl
    rw [hcons, List.filter_append]
    cases index with
    | zero =>
      obtain rfl := Option.some.inj h
      have hlater : (placed things (start + 1) rest).filter (·.1 = start + 0) = [] := by
        refine List.filter_eq_nil_iff.mpr fun pair hpair hplace => ?_
        obtain ⟨⟨entry, place⟩, hentry, hmem⟩ := List.mem_flatMap.mp hpair
        obtain ⟨thing, _, rfl⟩ := List.mem_map.mp hmem
        have hle := List.le_snd_of_mem_zipIdx hentry
        have hplace := of_decide_eq_true hplace
        simp only at hle hplace
        omega
      rw [hlater, List.append_nil, List.filter_eq_self.mpr]
      · rfl
      · simp
    | succ index =>
      have hnext := ih (start + 1) h
      have hfirst : ((things first).map (start, ·)).filter (·.1 = start + (index + 1)) = [] := by
        refine List.filter_eq_nil_iff.mpr fun pair hpair hplace => ?_
        obtain ⟨thing, _, rfl⟩ := List.mem_map.mp hpair
        have hplace := of_decide_eq_true hplace
        simp only at hplace
        omega
      rw [Nat.add_assoc, Nat.add_comm 1 index] at hnext
      rw [hfirst, List.nil_append, hnext]

end

namespace Registries

/-- The ties that come up: those of the references of each entry, and then those of the files. -/
def steps (registries : Registries) (entries : List Entry) : List (ℕ × Tie) :=
  placed registries.memberTies 0 entries ++ placed registries.fileTies 0 entries

/-- Connecting is done place by place. -/
theorem connect_eq_mapIdx (registries : Registries) (ties : List Tie) (entries : List Entry) :
    connect registries ties entries = entries.mapIdx fun place entry =>
      { entry with
        parents := registries.parentsOf entry
        children := if IsLast entries place entry then childrenOf ties entry.id else [] } := by
  induction entries with
  | nil => rfl
  | cons entry rest ih =>
    rw [connect, ih, List.mapIdx_cons]
    refine congrArg₂ List.cons ?_ rfl
    simp only [IsLast, ite_not, List.drop_succ_cons, List.drop_zero]

/-- Connecting gives the entries the edges of the ties that come up. -/
theorem connect_eq_recorded (registries : Registries) (entries : List Entry) :
    connect registries (registries.ties entries) entries =
      recorded entries (registries.steps entries) := by
  have hties : (registries.steps entries).map Prod.snd = registries.ties entries := by
    rw [steps, List.map_append, map_snd_placed, map_snd_placed, ties]
  rw [connect_eq_mapIdx, recorded, List.mapIdx_eq_mapIdx_iff]
  intro place hplace
  have hentry : entries[place]? = some entries[place] := List.getElem?_eq_getElem hplace
  have hsteps := congrArg₂ (· ++ ·) (filter_placed registries.memberTies 0 hentry)
    (filter_placed registries.fileTies 0 hentry)
  rw [Nat.zero_add, ← List.filter_append, ← List.map_append] at hsteps
  have hparents : registries.parentsOf entries[place] =
      (((registries.steps entries).filter (·.1 = place)).map (·.2.toOwner)).eraseDups := by
    rw [steps, hsteps, parentsOf, List.map_map]
    rfl
  have hchildren (id : String) : childrenOf (registries.ties entries) id =
      (((registries.steps entries).filter (·.2.owner = id)).map (·.2.toMember)).eraseDups := by
    rw [childrenOf, ← hties, List.filter_map, List.map_map]
    rfl
  rw [recordedAt, hparents, hchildren]

end Registries

/-- Linking records tie by tie, without repeating an edge. -/
theorem Atlas.link_entries_eq_foldl_record (comments : List Comment) :
    (Atlas.link comments).entries =
      ((Registries.ofEntries (comments.map Entry.ofComment)).steps
        (comments.map Entry.ofComment)).foldl record (comments.map Entry.ofComment) := by
  rw [foldl_record]
  · exact Registries.connect_eq_recorded _ _
  · intro entry hentry
    obtain ⟨comment, _, rfl⟩ := List.mem_map.mp hentry
    exact ⟨rfl, rfl⟩

end DocAtlas
