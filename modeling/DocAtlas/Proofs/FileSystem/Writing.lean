import DocAtlas.Proofs.FileSystem.Changes

/-!
# Whether a file can be written

To write a file, the directories on the way must be there and none may stand in its place; the other
files do not matter. Writing a file makes no directory and takes none away, so it changes nothing for
the files that are written after it.
-/

namespace DocAtlas

/-- Below a directory with some entries there are only these. -/
theorem Tree.at?_concat {tree : Tree} {location : List Name} {entries : List (Name × Tree)}
    (h : (tree.at? location).bind entries? = some entries) (name : Name) :
    tree.at? (location ++ [name]) = entries.lookup name := by
  induction location generalizing tree with
  | nil =>
    cases tree with
    | file bytes modified => cases h
    | dir found =>
      obtain rfl : found = entries := Option.some.inj h
      rw [List.nil_append, at?]
      cases found.lookup name <;> rfl
  | cons first rest ih =>
    cases tree with
    | file bytes modified => cases h
    | dir found =>
      rw [at?] at h
      rw [List.cons_append, at?]
      cases hchild : found.lookup first with
      | none => simp [hchild] at h
      | some child =>
        rw [hchild] at h
        exact ih h

namespace FileSystem

/-- Two file systems with the same working directory and the same directories. -/
structure SameDirs (fs other : FileSystem) : Prop where
  here : other.here = fs.here
  hasDirAt : ∀ location, other.tree.hasDirAt location = fs.tree.hasDirAt location

variable {fs other after : FileSystem} {route : Route}

/-- Names that lead to a directory lead there wherever there are the same directories. -/
theorem follow_of_hasDirAt {tree other : Tree} {location found names : List Name}
    (hdirs : ∀ location, other.hasDirAt location = tree.hasDirAt location)
    (h : follow tree location names = .ok found) (hfound : tree.hasDirAt found = true) :
    follow other location names = .ok found := by
  induction names generalizing location with
  | nil => exact h
  | cons name rest ih =>
    have hdir : tree.hasDirAt location = true :=
      (follow_eq_ok h).2 [] List.nil_prefix (List.cons_ne_nil name rest).symm
    obtain ⟨entries, hentries⟩ :
        ∃ entries, (other.at? location).bind Tree.entries? = some entries := by
      rw [← hdirs, Tree.hasDirAt] at hdir
      cases hat : other.at? location with
      | none => simp [hat] at hdir
      | some there =>
        cases there with
        | file bytes modified => simp [hat, Tree.isDir] at hdir
        | dir entries => exact ⟨entries, rfl⟩
    rw [follow] at h
    rw [follow, hentries]
    split at h
    · cases h
    split at h
    · next hup =>
      rw [if_pos hup]
      exact ih h
    next hup =>
    split at h
    · cases h
    next hbytes =>
    split at h
    · -- The name leads to a directory, either on the way or at its end.
      have hnext : tree.hasDirAt (location ++ [name]) = true := by
        cases rest with
        | nil =>
          obtain rfl : location ++ [name] = found := Except.ok.inj h
          exact hfound
        | cons second rest =>
          exact (follow_eq_ok h).2 [] List.nil_prefix (List.cons_ne_nil second rest).symm
      have hsome : (entries.lookup name).isSome = true := by
        rw [← Tree.at?_concat hentries]
        rw [← hdirs, Tree.hasDirAt] at hnext
        cases hat : other.at? (location ++ [name]) with
        | none => simp [hat] at hnext
        | some there => rfl
      rw [if_neg hup, if_neg hbytes, if_pos hsome]
      exact ih h
    · cases h

/-- A name can be used wherever there are the same directories. -/
theorem SameDirs.slot_eq (h : SameDirs fs other) {location : List Name} {last : Name}
    (hslot : fs.slot route = .ok (location, some last)) :
    other.slot route = .ok (location, some last) := by
  unfold slot at hslot ⊢
  split at hslot
  · cases hslot
  next found hlast =>
  dsimp only at hslot ⊢
  split at hslot
  · cases hslot
  next hnull =>
  split at hslot
  · cases hslot
  next hadmits =>
  obtain ⟨parent, hparent, hslot⟩ := exists_ok_of_bind_eq_ok hslot
  split at hslot
  · next hdir =>
    have hlocate : other.locate { route with names := route.names.dropLast } = .ok parent := by
      unfold locate at hparent ⊢
      split at hparent
      · cases hparent
      next hnull =>
      split at hparent
      · cases hparent
      next hadmits =>
      rw [if_neg hnull, if_neg hadmits, h.here]
      exact follow_of_hasDirAt h.hasDirAt hparent hdir
    rw [if_neg hnull, if_neg hadmits]
    change (other.locate { route with names := route.names.dropLast } >>= _) = _
    rw [hlocate]
    change (if other.tree.hasDirAt parent then _ else _) = _
    rw [h.hasDirAt, if_pos hdir]
    exact hslot
  · cases hslot

/-- Can a file be written along a route? -/
def CanWrite (fs : FileSystem) (route : Route) : Prop :=
  ∃ after, fs.writeFile route .empty = .ok after

/-- A file that is written can be written with any bytes wherever there are the same directories. -/
theorem SameDirs.exists_writeFile_eq (h : SameDirs fs other) {bytes : ByteArray}
    (hwrite : fs.writeFile route bytes = .ok after) (more : ByteArray) :
    ∃ after, other.writeFile route more = .ok after := by
  obtain ⟨⟨parent, name⟩, hslot, hwrite⟩ := exists_ok_of_bind_eq_ok hwrite
  cases name with
  | none => cases hwrite
  | some last =>
    dsimp only at hwrite
    split at hwrite
    · cases hwrite
    next hlast =>
    split at hwrite
    · cases hwrite
    next hbytes =>
    split at hwrite
    · cases hwrite
    next hfree =>
    rw [← h.hasDirAt] at hfree
    refine ⟨other.put (.file more 0) (parent ++ [last]), ?_⟩
    change (other.slot route >>= _) = _
    rw [h.slot_eq hslot]
    change (if _ then _ else if _ then _ else if _ then _ else _) = _
    rw [if_neg hlast, if_neg hbytes, if_neg hfree]

/-- Every file system has its own directories. -/
theorem SameDirs.refl (fs : FileSystem) : SameDirs fs fs :=
  ⟨rfl, fun _ => rfl⟩

/-- Where there are the same directories, the same files can be written, whatever their bytes. -/
theorem SameDirs.canWrite_iff (h : SameDirs fs other) (bytes : ByteArray) :
    other.CanWrite route ↔ ∃ after, fs.writeFile route bytes = .ok after := by
  have hback : SameDirs other fs := ⟨h.here.symm, fun location => (h.hasDirAt location).symm⟩
  constructor
  · intro hcan
    obtain ⟨after, hafter⟩ := hcan
    exact hback.exists_writeFile_eq hafter bytes
  · intro hcan
    obtain ⟨after, hafter⟩ := hcan
    exact h.exists_writeFile_eq hafter .empty

/-- Writing a file keeps the directories. -/
theorem sameDirs_of_writeFile_eq_ok {bytes : ByteArray} (h : fs.writeFile route bytes = .ok after) :
    SameDirs fs after := by
  obtain ⟨hput, hfree⟩ := writeFile_eq_ok h
  refine ⟨hput.here, fun location => ?_⟩
  rw [Bool.eq_iff_iff, Tree.hasDirAt_iff, Tree.hasDirAt_iff, hput.glance]
  split
  · next hlocation =>
    have hnone : fs.tree.glance? location ≠ some (.dir []) := by
      rw [hlocation, Ne, ← Tree.hasDirAt_iff, hfree]
      exact Bool.false_ne_true
    simp [hnone]
  · exact Iff.rfl

end FileSystem

end DocAtlas
