import DocAtlas.Proofs.FileSystem.Changes
import DocAtlas.Scan
import Mathlib.Data.List.Lex
import Mathlib.Data.List.Nodup
import Mathlib.Data.String.Basic

/-!
# The files of a tree

A tree whose directories do not hold a name twice has one thing at each location. Its files are then
those that are found by looking at its locations, each listed once. Sorting them by their paths puts
them in the lexicographic order of the segments, which is strict because no two of them have the same
path.
-/

namespace DocAtlas

namespace Tree

/-! ## Locations of files -/

/-- The names of a directory are locations below it. -/
theorem mem_locationsOf_of_mem {entries : List (Name × Tree)} {name : Name}
    (h : name ∈ entries.map Prod.fst) : [name] ∈ locationsOf entries := by
  induction entries with
  | nil => exact absurd h List.not_mem_nil
  | cons first rest ih =>
    obtain ⟨known, tree⟩ := first
    rw [locationsOf, List.cons_append, List.mem_cons, List.mem_append]
    rcases List.mem_cons.mp h with rfl | h
    · exact Or.inl rfl
    · exact Or.inr (Or.inr (ih h))

/-- Where each location is listed once, an entry stands under a name that the other entries do not
have, and the same holds below it and beside it. -/
theorem of_nodup_locationsOf_cons {name : Name} {tree : Tree} {rest : List (Name × Tree)}
    (h : (locationsOf ((name, tree) :: rest)).Nodup) :
    name ∉ rest.map Prod.fst ∧ tree.locations.Nodup ∧ (locationsOf rest).Nodup := by
  rw [locationsOf, List.cons_append, List.nodup_cons, List.nodup_append] at h
  obtain ⟨hname, htree, hrest, _⟩ := h
  refine ⟨fun hmem => hname ?_, htree.of_map, hrest⟩
  exact List.mem_append_right _ (mem_locationsOf_of_mem hmem)

/-- What stands at a location below a directory: the first entry is asked for its own name, the
others for all other names. -/
theorem at?_dir_cons (name : Name) (tree : Tree) (rest : List (Name × Tree)) (other : Name)
    (below : List Name) :
    (dir ((name, tree) :: rest)).at? (other :: below) =
      if other = name then tree.at? below else (dir rest).at? (other :: below) := by
  by_cases h : other = name
  · simp [at?, h]
  · have hne : (other == name) = false := beq_false_of_ne h
    simp [at?, List.lookup_cons, h, hne]

/-- There is nothing below a name that a directory does not have. -/
theorem at?_dir_of_notMem {entries : List (Name × Tree)} {name : Name}
    (h : name ∉ entries.map Prod.fst) (below : List Name) :
    (dir entries).at? (name :: below) = none := by
  induction entries with
  | nil => rfl
  | cons first rest ih =>
    rw [List.map_cons, List.mem_cons, not_or] at h
    rw [at?_dir_cons, if_neg h.1, ih h.2]

mutual

/-- The files of a tree are those that stand at its locations. -/
theorem mem_files_iff {location : List Name} {bytes : ByteArray} {modified : Int} :
    (tree : Tree) → tree.locations.Nodup →
      ((location, bytes, modified) ∈ tree.files ↔
        tree.at? location = some (file bytes modified))
  | file bytes' modified', _ => by
    cases location with
    | nil => simp [files, at?, eq_comm]
    | cons name rest => simp [files, at?]
  | dir entries, h => mem_filesOf_iff entries h

/-- The files below the entries of a directory are those that stand at its locations. -/
theorem mem_filesOf_iff {location : List Name} {bytes : ByteArray} {modified : Int} :
    (entries : List (Name × Tree)) → (locationsOf entries).Nodup →
      ((location, bytes, modified) ∈ filesOf entries ↔
        (dir entries).at? location = some (file bytes modified))
  | [], _ => by
    cases location <;> simp [filesOf, at?]
  | (name, tree) :: rest, h => by
    obtain ⟨hname, htree, hrest⟩ := of_nodup_locationsOf_cons h
    rw [filesOf, List.mem_append, mem_filesOf_iff rest hrest]
    cases location with
    | nil => simp [at?]
    | cons other below =>
      have hfirst : (other :: below, bytes, modified) ∈ tree.files.map (fun found =>
          (name :: found.1, found.2)) ↔
          other = name ∧ tree.at? below = some (file bytes modified) := by
        rw [← mem_files_iff tree htree]
        simp only [List.mem_map, Prod.exists, Prod.mk.injEq, List.cons.injEq]
        constructor
        · intro hmem
          obtain ⟨_, _, _, hmem, ⟨rfl, rfl⟩, rfl, rfl⟩ := hmem
          exact ⟨rfl, hmem⟩
        · intro hmem
          exact ⟨below, bytes, modified, hmem.2, ⟨hmem.1.symm, rfl⟩, rfl, rfl⟩
      rw [at?_dir_cons]
      refine (or_congr_left hfirst).trans ?_
      by_cases hother : other = name
      · rw [if_pos hother, hother, at?_dir_of_notMem hname]
        simp
      · rw [if_neg hother]
        simp [hother]

end

mutual

/-- The locations of files are listed among the locations, in their order. -/
theorem map_fst_files_sublist : (tree : Tree) →
    (tree.files.map Prod.fst).Sublist ([] :: tree.locations)
  | file bytes modified => by simp [files, locations]
  | dir entries => (map_fst_filesOf_sublist entries).cons []

/-- The locations of the files below a directory are listed among its locations, in their order. -/
theorem map_fst_filesOf_sublist : (entries : List (Name × Tree)) →
    ((filesOf entries).map Prod.fst).Sublist (locationsOf entries)
  | [] => List.Sublist.refl []
  | (name, tree) :: rest => by
    rw [filesOf, locationsOf, List.map_append]
    refine List.Sublist.append ?_ (map_fst_filesOf_sublist rest)
    have hfirst := (map_fst_files_sublist tree).map (name :: ·)
    rw [List.map_map] at hfirst ⊢
    exact hfirst

end

end Tree

/-! ## Files with a path -/

namespace Name

/-- Names have texts exactly if they are made of them. -/
theorem mapM_text?_eq_some_iff {names : List Name} {texts : List String} :
    names.mapM text? = some texts ↔ names = texts.map text := by
  induction names generalizing texts with
  | nil => cases texts <;> simp
  | cons first rest ih =>
    cases first with
    | raw bytes => cases texts <;> simp [text?]
    | text s =>
      have hcons : (text s :: rest).mapM text? = (rest.mapM text?).map (s :: ·) := by
        rw [List.mapM_cons]
        cases rest.mapM text? <;> rfl
      rw [hcons, Option.map_eq_some_iff]
      constructor
      · intro h
        obtain ⟨tail, htail, rfl⟩ := h
        rw [ih.mp htail, List.map_cons]
      · intro h
        cases texts with
        | nil => cases h
        | cons t texts =>
          obtain ⟨hfirst, hrest⟩ := List.cons.inj h
          rw [Name.text.inj hfirst]
          exact ⟨texts, ih.mpr hrest, rfl⟩

end Name

/-- A file stands in a tree: it is found at its location, and it is the file that is there. -/
def FoundFile.StandsIn (file : FoundFile) (tree : Tree) : Prop :=
  tree.at? (file.location.map .text) = some (.file file.bytes file.modified)

namespace Tree

variable {tree : Tree}

/-- The files of a tree that have a path are those that stand in it. -/
theorem mem_foundFiles_iff (h : tree.locations.Nodup) {file : FoundFile} :
    file ∈ tree.foundFiles ↔ file.StandsIn tree := by
  rw [foundFiles, FoundFile.StandsIn, ← mem_files_iff tree h, List.mem_filterMap]
  constructor
  · intro hfile
    obtain ⟨⟨location, bytes, modified⟩, hmem, hfound⟩ := hfile
    obtain ⟨texts, htexts, rfl⟩ := Option.map_eq_some_iff.mp hfound
    rwa [Name.mapM_text?_eq_some_iff.mp htexts] at hmem
  · intro hfile
    refine ⟨_, hfile, ?_⟩
    simp only [Name.mapM_text?_eq_some_iff.mpr rfl, Option.map_some]

/-- No two files below a directory have one path. -/
theorem pairwise_foundFiles {entries : List (Name × Tree)}
    (h : (dir entries).locations.Nodup) :
    (dir entries).foundFiles.Pairwise fun a b => a.location ≠ b.location := by
  have hfiles : (dir entries).files.Pairwise fun a b => a.1 ≠ b.1 :=
    List.pairwise_map.mp ((map_fst_filesOf_sublist entries).nodup h)
  refine List.Pairwise.filterMap _ (fun a b hne first hfirst second hsecond heq => hne ?_) hfiles
  obtain ⟨texts, htexts, rfl⟩ := Option.map_eq_some_iff.mp hfirst
  obtain ⟨others, hothers, rfl⟩ := Option.map_eq_some_iff.mp hsecond
  obtain rfl : texts = others := heq
  rw [Name.mapM_text?_eq_some_iff.mp htexts, Name.mapM_text?_eq_some_iff.mp hothers]

end Tree

/-! ## The order of paths -/

/-- A path comes no later than another one exactly if that one does not stand before it in the
lexicographic order. -/
theorem segmentsLe_iff (a b : List String) : segmentsLe a b = true ↔ ¬b < a := by
  induction a generalizing b with
  | nil => simp [segmentsLe]
  | cons first rest ih =>
    cases b with
    | nil => simp [segmentsLe]
    | cons other others =>
      rw [segmentsLe, List.cons_lt_cons_iff]
      by_cases h : first = other
      · simp [h, ih]
      · rw [if_neg h, decide_eq_true_iff, not_or, not_and]
        constructor
        · exact fun hlt => ⟨hlt.asymm, fun heq => absurd heq.symm h⟩
        · exact fun hnot => (lt_trichotomy first other).resolve_right (not_or.mpr ⟨h, hnot.1⟩)

namespace Tree

/-- Sorting files changes nothing but their order. -/
theorem mem_sortedFiles_iff {tree : Tree} {file : FoundFile} :
    file ∈ tree.sortedFiles ↔ file ∈ tree.foundFiles :=
  (List.mergeSort_perm _ _).mem_iff

/-- The sorted files below a directory stand in the strict order of their paths. -/
theorem pairwise_sortedFiles {entries : List (Name × Tree)}
    (h : (dir entries).locations.Nodup) :
    (dir entries).sortedFiles.Pairwise fun a b => a.location < b.location := by
  have hle : (dir entries).sortedFiles.Pairwise fun a b => a.location ≤ b.location := by
    have hsorted : (dir entries).sortedFiles.Pairwise fun a b =>
        segmentsLe a.location b.location = true := by
      refine List.pairwise_mergeSort (fun a b c hab hbc => ?_) (fun a b => ?_) _
      · rw [segmentsLe_iff, not_lt] at hab hbc ⊢
        exact le_trans hab hbc
      · rw [Bool.or_eq_true, segmentsLe_iff, segmentsLe_iff, not_lt, not_lt]
        exact le_total a.location b.location
    exact hsorted.imp fun hab => not_lt.mp ((segmentsLe_iff _ _).mp hab)
  have hne : (dir entries).sortedFiles.Pairwise fun a b => a.location ≠ b.location :=
    ((List.mergeSort_perm _ _).pairwise_iff fun hab => hab.symm).mpr (pairwise_foundFiles h)
  exact (hle.and hne).imp fun hab => lt_of_le_of_ne hab.1 hab.2

end Tree

end DocAtlas
