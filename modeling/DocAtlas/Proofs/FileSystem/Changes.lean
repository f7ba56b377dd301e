import DocAtlas.FileSystem
import Mathlib.Data.List.Infix

/-!
# What changes in a file system

A file system is seen by looking at its locations: at each there is nothing, a file or a directory.
A route leads to one place, whether or not anything is there, and to reach it all places on the way
must be directories. Making a directory and writing a file change what is seen at the place of the
route and nowhere else. So making a directory together with those on the way fills in the places
where nothing was, and leaves everything else as it is.
-/

namespace DocAtlas

namespace Tree

/-- What there is, without the entries of a directory. -/
def bare : Tree → Tree
  | file bytes modified => file bytes modified
  | dir _ => dir []

/-- What is seen at a location: nothing, a file or a directory. -/
def glance? (tree : Tree) (location : List Name) : Option Tree :=
  (tree.at? location).map bare

/-- Below a directory its entries are seen. -/
theorem glance?_dir_cons (entries : List (Name × Tree)) (name : Name) (rest : List Name) :
    (dir entries).glance? (name :: rest) = (entries.lookup name).bind (·.glance? rest) := by
  rw [glance?, at?]
  cases entries.lookup name <;> rfl

/-- A directory is seen where there is one. -/
theorem hasDirAt_iff (tree : Tree) (location : List Name) :
    tree.hasDirAt location = true ↔ tree.glance? location = some (dir []) := by
  rw [hasDirAt, glance?]
  cases tree.at? location with
  | none => simp
  | some found => cases found <;> simp [isDir, bare]

/-- Where there is no directory, nothing is seen below. -/
theorem glance?_cons_of_hasDirAt_eq_false {tree : Tree} (h : tree.hasDirAt [] = false) (name : Name)
    (rest : List Name) : tree.glance? (name :: rest) = none := by
  cases tree with
  | file bytes modified => rfl
  | dir entries => simp [hasDirAt, at?, isDir] at h

/-- The top of a tree is a directory if there is one at some location. -/
theorem exists_entries_of_hasDirAt {tree : Tree} {location : List Name}
    (h : tree.hasDirAt location = true) : ∃ entries, tree = dir entries := by
  cases tree with
  | file bytes modified => cases location <;> simp [hasDirAt, at?, isDir] at h
  | dir entries => exact ⟨entries, rfl⟩

/-- What is put into a directory, and has nothing below it, is seen there. Nothing else changes if
there was no directory in its place. -/
theorem glance?_put {tree new : Tree} {parent : List Name} {name : Name}
    (hparent : tree.hasDirAt parent = true) (hfree : tree.hasDirAt (parent ++ [name]) = false)
    (hnew : new.bare = new) (location : List Name) :
    (tree.put new (parent ++ [name])).glance? location =
      if location = parent ++ [name] then some new else tree.glance? location := by
  induction parent generalizing tree location with
  | nil =>
    obtain ⟨entries, rfl⟩ := exists_entries_of_hasDirAt hparent
    cases location with
    | nil => rfl
    | cons other rest =>
      rw [List.nil_append, put, put, glance?_dir_cons, glance?_dir_cons]
      by_cases hname : other = name
      · subst hname
        rw [entries?, Option.getD_some, Keyed.lookup_put_self, Option.bind_some]
        cases rest with
        | nil => rw [if_pos rfl, glance?, at?, Option.map_some, hnew]
        | cons below rest =>
          -- Below the place there was nothing to see before, and there is nothing now.
          have hbelow : (entries.lookup other).bind (·.glance? (below :: rest)) = none := by
            rw [List.nil_append, hasDirAt, at?] at hfree
            cases hchild : entries.lookup other with
            | none => rfl
            | some child =>
              rw [hchild] at hfree
              exact glance?_cons_of_hasDirAt_eq_false hfree below rest
          rw [if_neg (by simp), hbelow]
          cases new with
          | file bytes modified => rfl
          | dir entries =>
            rw [← hnew, bare, glance?_dir_cons]
            rfl
      · rw [entries?, Option.getD_some, Keyed.lookup_put_of_ne hname, if_neg (by simp [hname])]
  | cons first parent ih =>
    obtain ⟨entries, rfl⟩ := exists_entries_of_hasDirAt hparent
    obtain ⟨child, hchild⟩ : ∃ child, entries.lookup first = some child := by
      rw [hasDirAt, at?] at hparent
      cases hchild : entries.lookup first with
      | none => simp [hchild] at hparent
      | some child => exact ⟨child, rfl⟩
    cases location with
    | nil => rfl
    | cons other rest =>
      rw [List.cons_append, put, glance?_dir_cons, glance?_dir_cons, entries?, Option.getD_some,
        hchild, Option.getD_some]
      by_cases hname : other = first
      · subst hname
        simp only [hasDirAt, List.cons_append, at?, hchild] at hparent hfree
        rw [Keyed.lookup_put_self, Option.bind_some, hchild, Option.bind_some, ih hparent hfree]
        simp
      · rw [Keyed.lookup_put_of_ne hname, if_neg (by simp [hname])]

end Tree

/-- What goes on from a computation and has a result goes on from a result. -/
theorem exists_ok_of_bind_eq_ok {ε α β : Type} {first : Except ε α} {next : α → Except ε β} {b : β}
    (h : (first >>= next) = .ok b) : ∃ a, first = .ok a ∧ next a = .ok b := by
  cases first with
  | error cause => cases h
  | ok a => exact ⟨a, rfl, h⟩

namespace FileSystem

/-- Where a name leads from a location. -/
def descend (location : List Name) (name : Name) : List Name :=
  if name = .up then location.dropLast else location ++ [name]

/-- Where a route leads, whether or not there is anything. -/
def place (fs : FileSystem) (route : Route) : List Name :=
  route.names.foldl descend (if route.root = "" then fs.here else [])

/-- The places on the way along a route, from where it begins to where it leads. -/
def placesTo (fs : FileSystem) (route : Route) : List (List Name) :=
  route.names.inits.map fun names => fs.place { route with names }

variable {fs after : FileSystem} {route : Route}

/-- The places on the way are those of the beginnings of the route. -/
theorem mem_placesTo_iff {location : List Name} :
    location ∈ fs.placesTo route ↔
      ∃ names, names <+: route.names ∧ fs.place { route with names } = location := by
  simp [placesTo, List.mem_inits]

/-- The places of a route follow from the working directory. -/
theorem place_congr (h : after.here = fs.here) (route : Route) :
    after.place route = fs.place route := by
  rw [place, place, h]

/-- The places on the way follow from the working directory. -/
theorem placesTo_congr (h : after.here = fs.here) (route : Route) :
    after.placesTo route = fs.placesTo route := by
  simp only [placesTo, place_congr h]

/-- The place of a route whose last name does not lead up is below the place before it. -/
theorem place_concat (fs : FileSystem) (root : String) (names : List Name) {last : Name}
    (h : last ≠ .up) :
    fs.place { root, names := names ++ [last] } = fs.place { root, names } ++ [last] := by
  rw [place, place, List.foldl_append, List.foldl_cons, List.foldl_nil, descend, if_neg h]

/-- The places on the way along a longer route. -/
theorem mem_placesTo_concat_iff {root : String} {names : List Name} {last : Name}
    {location : List Name} :
    location ∈ fs.placesTo { root, names := names ++ [last] } ↔
      location ∈ fs.placesTo { root, names } ∨
        fs.place { root, names := names ++ [last] } = location := by
  simp only [mem_placesTo_iff, List.prefix_concat_iff, or_and_right, exists_or, exists_eq_left]
  exact or_comm

/-! ## Following a route -/

/-- Names can be followed only through directories, and lead where they say. -/
theorem follow_eq_ok {tree : Tree} {location found : List Name} {names : List Name}
    (h : follow tree location names = .ok found) :
    found = names.foldl descend location ∧
      ∀ before, before <+: names → before ≠ names →
        tree.hasDirAt (before.foldl descend location) = true := by
  induction names generalizing location with
  | nil =>
    refine ⟨(Except.ok.inj h).symm, fun before hbefore hne => ?_⟩
    exact absurd (List.prefix_nil.mp hbefore) hne
  | cons name rest ih =>
    rw [follow] at h
    split at h
    · cases h
    next entries hentries =>
    have hdir : tree.hasDirAt location = true := by
      obtain ⟨found, hfound, hdir⟩ := Option.bind_eq_some_iff.mp hentries
      cases found with
      | file bytes modified => cases hdir
      | dir entries => simp [Tree.hasDirAt, hfound, Tree.isDir]
    have hrest : follow tree (descend location name) rest = .ok found := by
      rw [descend]
      split at h
      · next hup => rwa [if_pos hup]
      · next hup =>
        rw [if_neg hup]
        split at h
        · cases h
        · split at h
          · exact h
          · cases h
    obtain ⟨rfl, hway⟩ := ih hrest
    refine ⟨rfl, fun before hbefore hne => ?_⟩
    cases before with
    | nil => exact hdir
    | cons first before =>
      obtain ⟨rfl, hbelow⟩ := List.cons_prefix_cons.mp hbefore
      exact hway before hbelow fun heq => hne (by rw [heq])

/-- All places on the way along a route are directories, and so is where it leads. -/
def HasDirsTo (fs : FileSystem) (route : Route) : Prop :=
  ∀ location ∈ fs.placesTo route, fs.tree.hasDirAt location = true

/-- A route that can be followed leads to its place. If a directory is there, all places on the way
are directories. -/
theorem locate_eq_ok {location : List Name} (h : fs.locate route = .ok location) :
    location = fs.place route ∧ (fs.tree.hasDirAt location = true → fs.HasDirsTo route) := by
  unfold locate at h
  split at h
  · cases h
  split at h
  · cases h
  obtain ⟨rfl, hway⟩ := follow_eq_ok h
  refine ⟨rfl, fun hdir place hplace => ?_⟩
  obtain ⟨names, hnames, rfl⟩ := mem_placesTo_iff.mp hplace
  by_cases heq : names = route.names
  · rw [heq]
    exact hdir
  · exact hway names hnames heq

/-- A route that leads to a directory leads through directories. -/
theorem hasDirsTo_of_hasDir (h : fs.hasDir route = true) : fs.HasDirsTo route := by
  unfold hasDir at h
  split at h
  · next found hfound =>
    obtain ⟨location, hlocate, hfound⟩ := exists_ok_of_bind_eq_ok hfound
    refine (locate_eq_ok hlocate).2 ?_
    split at hfound
    · next tree hat =>
      obtain rfl := Except.ok.inj hfound
      rw [Tree.hasDirAt, hat]
      exact h
    · cases hfound
  · cases h

/-- A name can be used in a directory that is reached through directories. -/
theorem slot_eq_ok {location : List Name} {last : Name}
    (h : fs.slot route = .ok (location, some last)) :
    ∃ names, route.names = names ++ [last] ∧ location = fs.place { route with names } ∧
      fs.HasDirsTo { route with names } := by
  unfold slot at h
  split at h
  · cases h
  · next found hlast =>
    dsimp only at h
    split at h
    · cases h
    split at h
    · cases h
    obtain ⟨parent, hparent, h⟩ := exists_ok_of_bind_eq_ok h
    split at h
    · next hdir =>
      simp only [Except.ok.injEq, Prod.mk.injEq, Option.some.injEq] at h
      obtain ⟨rfl, rfl⟩ := h
      refine ⟨route.names.dropLast, ?_, (locate_eq_ok hparent).1, (locate_eq_ok hparent).2 hdir⟩
      obtain ⟨names, hnames⟩ := List.getLast?_eq_some_iff.mp hlast
      rw [hnames, List.dropLast_concat]
    · cases h

/-! ## Steps -/

/-- Something was put at a location, and everything else is as it was. -/
structure PutAt (fs after : FileSystem) (location : List Name) (new : Tree) : Prop where
  here : after.here = fs.here
  glance : ∀ other, after.tree.glance? other =
    if other = location then some new else fs.tree.glance? other

/-- What is put at the last name of a route, below places that are directories, is seen at the place
of the route, if there was no directory. -/
theorem putAt_place {root : String} {names : List Name} {last : Name} {new : Tree}
    (hlast : last ≠ .up) (hdirs : fs.HasDirsTo { root, names })
    (hfree : fs.tree.hasDirAt (fs.place { root, names } ++ [last]) = false)
    (hnew : new.bare = new) :
    fs.PutAt (fs.put new (fs.place { root, names } ++ [last]))
      (fs.place { root, names := names ++ [last] }) new := by
  have hparent : fs.tree.hasDirAt (fs.place { root, names }) = true :=
    hdirs _ (mem_placesTo_iff.mpr ⟨names, List.prefix_rfl, rfl⟩)
  rw [place_concat fs root names hlast]
  exact ⟨rfl, Tree.glance?_put hparent hfree hnew⟩

/-- A directory is made where nothing was, below places that are directories. -/
theorem makeDir_eq_ok (h : fs.makeDir route = .ok after) :
    fs.PutAt after (fs.place route) (.dir []) ∧ fs.tree.glance? (fs.place route) = none ∧
      ∀ location ∈ fs.placesTo route,
        location = fs.place route ∨ fs.tree.hasDirAt location = true := by
  obtain ⟨⟨parent, name⟩, hslot, h⟩ := exists_ok_of_bind_eq_ok h
  cases name with
  | none => cases h
  | some last =>
    obtain ⟨names, hnames, rfl, hdirs⟩ := slot_eq_ok hslot
    obtain ⟨root, _⟩ := route
    subst hnames
    dsimp only at h
    split at h
    · cases h
    next hlast =>
    split at h
    · cases h
    split at h
    · cases h
    next hnothing =>
    have hnothing : fs.tree.at? (fs.place { root, names } ++ [last]) = none := by
      simpa using hnothing
    obtain rfl := Except.ok.inj h
    refine ⟨putAt_place hlast hdirs (by rw [Tree.hasDirAt, hnothing]; rfl) rfl, ?_, ?_⟩
    · rw [place_concat fs root names hlast, Tree.glance?, hnothing]
      rfl
    · intro location hlocation
      exact (mem_placesTo_concat_iff.mp hlocation).symm.imp Eq.symm (hdirs location)

/-- A file is written at the place of the route, where no directory was, and nothing else is
changed. -/
theorem writeFile_eq_ok {bytes : ByteArray} (h : fs.writeFile route bytes = .ok after) :
    fs.PutAt after (fs.place route) (.file bytes 0) ∧
      fs.tree.hasDirAt (fs.place route) = false := by
  obtain ⟨⟨parent, name⟩, hslot, h⟩ := exists_ok_of_bind_eq_ok h
  cases name with
  | none => cases h
  | some last =>
    obtain ⟨names, hnames, rfl, hdirs⟩ := slot_eq_ok hslot
    obtain ⟨root, _⟩ := route
    subst hnames
    dsimp only at h
    split at h
    · cases h
    next hlast =>
    split at h
    · cases h
    split at h
    · cases h
    next hfree =>
    have hfree : fs.tree.hasDirAt (fs.place { root, names } ++ [last]) = false := by
      simpa using hfree
    obtain rfl := Except.ok.inj h
    refine ⟨putAt_place hlast hdirs hfree rfl, ?_⟩
    rw [place_concat fs root names hlast]
    exact hfree

/-! ## Making directories on the way -/

/-- At each of some locations there was nothing or a directory, and now there is a directory.
Everything else is as it was. -/
structure DirsMade (fs after : FileSystem) (locations : List (List Name)) : Prop where
  here : after.here = fs.here
  missing : ∀ location ∈ locations,
    fs.tree.glance? location = none ∨ fs.tree.glance? location = some (.dir [])
  glance : ∀ location, after.tree.glance? location =
    if location ∈ locations then some (.dir []) else fs.tree.glance? location

/-- Nothing has to be made on the way along a route that leads through directories. -/
theorem HasDirsTo.dirsMade (h : fs.HasDirsTo route) : fs.DirsMade fs (fs.placesTo route) := by
  have hseen : ∀ location ∈ fs.placesTo route, fs.tree.glance? location = some (.dir []) :=
    fun location hlocation => (fs.tree.hasDirAt_iff location).mp (h location hlocation)
  refine ⟨rfl, fun location hlocation => Or.inr (hseen location hlocation), fun location => ?_⟩
  split
  · next hlocation => exact hseen location hlocation
  · rfl

/-- Directories that are made after others. -/
theorem DirsMade.trans {middle : FileSystem} {first second : List (List Name)}
    (hfirst : fs.DirsMade middle first) (hsecond : middle.DirsMade after second)
    (hsubset : first ⊆ second) : fs.DirsMade after second := by
  refine ⟨hsecond.here.trans hfirst.here, fun location hlocation => ?_, fun location => ?_⟩
  · by_cases hmade : location ∈ first
    · exact hfirst.missing location hmade
    · have hseen := hsecond.missing location hlocation
      rwa [hfirst.glance, if_neg hmade] at hseen
  · rw [hsecond.glance]
    split
    · rfl
    · next hlocation => rw [hfirst.glance, if_neg fun hmade => hlocation (hsubset hmade)]

/-- Making a directory that may already be there. -/
theorem ensureDir_eq_ok (h : fs.ensureDir route = .ok after) :
    fs.DirsMade after (fs.placesTo route) := by
  unfold ensureDir at h
  split at h
  · next made hmade =>
    obtain rfl := Except.ok.inj h
    obtain ⟨hput, hnothing, hway⟩ := makeDir_eq_ok hmade
    refine ⟨hput.here, fun location hlocation => ?_, fun location => ?_⟩
    · rcases hway location hlocation with rfl | hdir
      · exact Or.inl hnothing
      · exact Or.inr ((fs.tree.hasDirAt_iff location).mp hdir)
    · rw [hput.glance]
      by_cases hplace : location = fs.place route
      · have hend : location ∈ fs.placesTo route :=
          mem_placesTo_iff.mpr ⟨route.names, List.prefix_rfl, hplace.symm⟩
        rw [if_pos hplace, if_pos hend]
      · rw [if_neg hplace]
        split
        · next hlocation =>
          exact (fs.tree.hasDirAt_iff location).mp ((hway location hlocation).resolve_left hplace)
        · rfl
  · split at h
    · next hdir =>
      obtain rfl := Except.ok.inj h
      exact (hasDirsTo_of_hasDir hdir).dirsMade
    · cases h

/-- Making a directory with those on the way makes what is missing on the way, and changes nothing
else. -/
theorem ensureDirs_eq_ok {root : String} {reversed : List Name}
    (h : fs.ensureDirs root reversed = .ok after) :
    fs.DirsMade after (fs.placesTo { root, names := reversed.reverse }) := by
  induction reversed generalizing after with
  | nil => exact ensureDir_eq_ok h
  | cons last before ih =>
    rw [ensureDirs] at h
    split at h
    · obtain ⟨middle, hmiddle, h⟩ := exists_ok_of_bind_eq_ok h
      have hfirst := ih hmiddle
      have hsecond := ensureDir_eq_ok h
      rw [placesTo_congr hfirst.here] at hsecond
      refine hfirst.trans hsecond fun location hlocation => ?_
      rw [List.reverse_cons, mem_placesTo_concat_iff]
      exact Or.inl hlocation
    · exact ensureDir_eq_ok h

end FileSystem

end DocAtlas
