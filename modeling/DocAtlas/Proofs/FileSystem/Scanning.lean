import DocAtlas.Proofs.FileSystem.Files
import DocAtlas.Proofs.Text.Cut
import DocAtlas.Proofs.Text.Pieces
import Mathlib.Data.List.Forall2

/-!
# What scanning selects

A scan of a directory selects files one by one: a file is taken or left for its path below the
directory, its extension and its bytes, whatever else there is. The order of the result is that of
the paths. So a scan depends on what is seen below the directory and on nothing else, and moving the
directory to another place moves the result.

All this holds as long as no path that is looked at is too long. A target that does not exist is
reported as missing only under the same condition, and one path below a directory that is too long
ends the whole scan, wanted or not.
-/

namespace DocAtlas

open DocAtlas.Text

/-! ## Paths and bytes of a file -/

namespace Path

/-- The extension of a file name: what stands behind the last dot, and nothing if there is no dot or
the last one is the first or the last character of the name. -/
inductive IsExtension : String → String → Prop where
  | noDot {name : String} (h : '.' ∉ name.toList) : IsExtension name ""
  | dotFirst {rest : String} (h : '.' ∉ rest.toList) : IsExtension ("." ++ rest) ""
  | dotLast (stem : String) : IsExtension (stem ++ ".") ""
  | behindDot {stem extension : String} (hstem : stem ≠ "") (hextension : extension ≠ "")
      (h : '.' ∉ extension.toList) : IsExtension (stem ++ "." ++ extension) extension

/-- Behind the last dot of a name stands its extension, unless the dot is at one of its ends. -/
theorem extensionOf_append (stem : String) {ending : String} (h : '.' ∉ ending.toList) :
    extensionOf (stem ++ "." ++ ending) = if ending = "" ∨ stem = "" then "" else ending := by
  have hreverse : (stem ++ "." ++ ending).toList.reverse =
      ending.toList.reverse ++ '.' :: stem.toList.reverse := by
    simp
  rw [extensionOf, hreverse, cut?_of_notMem (by simpa using h)]
  simp [String.toList_eq_nil_iff]

/-- A name without a dot has no extension. -/
theorem extensionOf_of_notMem {name : String} (h : '.' ∉ name.toList) : extensionOf name = "" := by
  have hcut : cut? ['.'] name.toList.reverse = none := by
    rw [cut?_eq_none_iff (by simp), List.singleton_infix_iff]
    simpa using h
  rw [extensionOf, hcut]

/-- A name has no dot, or a last one. -/
theorem notMem_or_exists_lastDot (name : String) :
    '.' ∉ name.toList ∨
      ∃ stem ending : String, name = stem ++ "." ++ ending ∧ '.' ∉ ending.toList := by
  by_cases h : '.' ∈ name.toList
  · obtain ⟨back, front, heq, hback⟩ := List.eq_append_cons_of_mem (List.mem_reverse.mpr h)
    refine Or.inr ⟨String.ofList front.reverse, String.ofList back.reverse, ?_, by simpa using hback⟩
    apply String.toList_injective
    rw [← List.reverse_reverse name.toList, heq]
    simp
  · exact Or.inl h

/-- A file name has the extension that is found for it and no other. -/
theorem isExtension_iff {name extension : String} :
    IsExtension name extension ↔ extensionOf name = extension := by
  constructor
  · intro h
    cases h with
    | noDot h => exact extensionOf_of_notMem h
    | dotFirst h => simpa using extensionOf_append "" h
    | dotLast stem =>
      have hending : '.' ∉ ("" : String).toList := by simp
      simpa using extensionOf_append stem hending
    | behindDot hstem hextension h =>
      rw [extensionOf_append _ h, if_neg (by simp [hstem, hextension])]
  · intro h
    subst h
    rcases notMem_or_exists_lastDot name with hdot | ⟨stem, ending, rfl, hdot⟩
    · rw [extensionOf_of_notMem hdot]
      exact .noDot hdot
    · rw [extensionOf_append stem hdot]
      by_cases hending : ending = ""
      · subst hending
        simpa using IsExtension.dotLast stem
      by_cases hstem : stem = ""
      · subst hstem
        simpa using IsExtension.dotFirst hdot
      · rw [if_neg (by simp [hending, hstem])]
        exact .behindDot hstem hending hdot

/-- A path without a root is spelled by its segments. -/
theorem ofString_intercalate {segments : List String} (hne : segments ≠ [])
    (h : ∀ segment ∈ segments, segment ≠ "" ∧ segment ≠ "." ∧ '/' ∉ segment.toList) :
    ofString ("/".intercalate segments) = { root := "", segments } := by
  have hjoin : ("/".intercalate segments).toList = joinWith ['/'] (segments.map String.toList) := by
    rw [String.toList_intercalate, joinWith_eq_intercalate]
    rfl
  have hpieces : pieces '/' '.' (joinWith ['/'] (segments.map String.toList)) =
      segments.map String.toList := by
    rw [pieces, splitWhere_joinWith (by decide) (by simpa using hne)]
    · refine List.filter_eq_self.mpr fun piece hpiece => ?_
      obtain ⟨segment, hsegment, rfl⟩ := List.mem_map.mp hpiece
      have hdot : segment.toList ≠ ['.'] := fun heq =>
        (h segment hsegment).2.1 (String.toList_injective heq)
      simp [h segment hsegment, hdot]
    · intro piece hpiece c hc
      obtain ⟨segment, hsegment, rfl⟩ := List.mem_map.mp hpiece
      exact beq_false_of_ne fun heq => (h segment hsegment).2.2 (heq ▸ hc)
  have hroot : (joinWith ['/'] (segments.map String.toList)).takeWhile (· == '/') = [] := by
    obtain ⟨first, rest, rfl⟩ := List.exists_cons_of_ne_nil hne
    obtain ⟨hfirst, -, hslash⟩ := h first List.mem_cons_self
    obtain ⟨c, cs, hc⟩ := List.exists_cons_of_ne_nil (mt String.toList_eq_nil_iff.mp hfirst)
    have hne' : c ≠ '/' := fun heq => hslash (by rw [hc, heq]; exact List.mem_cons_self)
    rw [joinWith_eq_intercalate, List.map_cons, hc]
    cases rest <;> simp [List.intercalate, hne']
  rw [ofString, hjoin, hroot, hpieces, List.map_map]
  simp [rootOf, Function.comp_def]

/-- A path is ignored if one of the fragments that are not empty occurs in it. -/
theorem isIgnored_eq_false_iff {path : Path} {fragments : List String} :
    path.isIgnored fragments = false ↔
      ∀ fragment ∈ fragments, fragment ≠ "" → ¬fragment.toList <:+: path.toString.toList := by
  rw [isIgnored, List.any_eq_false]
  refine forall₂_congr fun fragment _ => ?_
  by_cases h : fragment = ""
  · simp [h]
  · have hne : fragment.toList ≠ [] := fun hnil => h (String.toList_eq_nil_iff.mp hnil)
    rw [occursIn, ← cut?_eq_none_iff hne]
    simp [h]

end Path

/-- Bytes can be read exactly if they encode a text. -/
theorem Text.isSome_decode?_iff {bytes : ByteArray} :
    (decode? bytes).isSome = true ↔ ∃ text : String, text.toUTF8 = bytes := by
  simp [Option.isSome_iff_exists, decode?_eq_some_iff]

/-! ## Selected files -/

namespace FoundFile

/-- A file below a directory is selected: it stands there, no ignored fragment occurs in its path
below the directory, its extension is one of the types, and its bytes are a text. -/
structure Selected (tree : Tree) (ignore types : List String) (file : FoundFile) : Prop where
  stands : file.StandsIn tree
  clear : ∀ fragment ∈ ignore, fragment ≠ "" →
    ¬fragment.toList <:+: ("/".intercalate file.location).toList
  typed : ∃ name extension, file.location.getLast? = some name ∧
    Path.IsExtension name extension ∧ extension ∈ types
  text : ∃ text : String, text.toUTF8 = file.bytes

/-- The source that is read from a file below a target: its path leads from the target to the file,
its content is the text of the file with unified line ends, and its date is that of its last
change. -/
structure ReadAs (target : Path) (file : FoundFile) (source : SourceFile) : Prop where
  path : source.path = (target.append file.location).toString
  content : ∃ text : String, text.toUTF8 = file.bytes ∧
    source.content = String.ofList (unifyNewlines text.toList)
  modified : source.modified = Number.isoTimestamp file.modified

variable {file : FoundFile} {ignore types : List String}

/-- A file below a directory is wanted for its path and its extension. -/
theorem isWanted_iff (h : file.location ≠ []) :
    file.isWanted ignore types = true ↔
      (∀ fragment ∈ ignore, fragment ≠ "" →
        ¬fragment.toList <:+: ("/".intercalate file.location).toList) ∧
      ∃ name extension, file.location.getLast? = some name ∧
        Path.IsExtension name extension ∧ extension ∈ types := by
  have htext : ({ root := "", segments := file.location } : Path).toString =
      "/".intercalate file.location := by
    simp [Path.toString, h]
  obtain ⟨name, hname⟩ := Option.ne_none_iff_exists'.mp (mt List.getLast?_eq_none_iff.mp h)
  rw [isWanted, Bool.and_eq_true, Bool.not_eq_true', Path.isIgnored_eq_false_iff, htext]
  refine and_congr_right fun _ => ?_
  simp only [Path.hasType, decide_eq_true_iff, Path.extension, Path.name, hname, Option.getD_some,
    Path.isExtension_iff, Option.some.injEq]
  simp

/-- A file below a target gives the source that is read from it. -/
theorem readAs_of_toSource?_eq_some {target : Path} {source : SourceFile}
    (h : file.toSource? (target.append file.location) = some source) :
    file.ReadAs target source := by
  obtain ⟨content, hcontent, rfl⟩ := Option.map_eq_some_iff.mp h
  exact ⟨rfl, decode?_eq_some_iff.mp hcontent, rfl⟩

end FoundFile

namespace Tree

variable {entries : List (Name × Tree)} {target : Path} {ignore types : List String}

/-- The files below a directory that give sources, in order. -/
def selectedFiles (tree : Tree) (ignore types : List String) : List FoundFile :=
  (tree.sortedFiles.filter (·.isWanted ignore types)).filter fun file =>
    (decode? file.bytes).isSome

/-- Files are selected one by one. -/
theorem mem_selectedFiles_iff (h : (dir entries).locations.Nodup) {file : FoundFile} :
    file ∈ (dir entries).selectedFiles ignore types ↔
      file.Selected (dir entries) ignore types := by
  rw [selectedFiles, List.mem_filter, List.mem_filter, mem_sortedFiles_iff, mem_foundFiles_iff h,
    isSome_decode?_iff]
  -- The directory itself is no file, so the location of a file is not empty.
  have hlocation : file.StandsIn (dir entries) → file.location ≠ [] := by
    intro hstands hnil
    rw [FoundFile.StandsIn, hnil] at hstands
    cases hstands
  constructor
  · intro hfile
    obtain ⟨⟨hstands, hwanted⟩, htext⟩ := hfile
    obtain ⟨hclear, htyped⟩ := (FoundFile.isWanted_iff (hlocation hstands)).mp hwanted
    exact ⟨hstands, hclear, htyped, htext⟩
  · intro hfile
    have hwanted := (FoundFile.isWanted_iff (hlocation hfile.stands)).mpr ⟨hfile.clear, hfile.typed⟩
    exact ⟨⟨hfile.stands, hwanted⟩, hfile.text⟩

/-- Selected files stand in the strict order of their paths. -/
theorem pairwise_selectedFiles (h : (dir entries).locations.Nodup) (ignore types : List String) :
    ((dir entries).selectedFiles ignore types).Pairwise fun a b => a.location < b.location :=
  ((pairwise_sortedFiles h).filter _).filter _

/-- The sources of a directory are read from its selected files, one from each. -/
theorem forall₂_sourcesOf (entries : List (Name × Tree)) (target : Path)
    (ignore types : List String) :
    List.Forall₂ (FoundFile.ReadAs target) ((dir entries).selectedFiles ignore types)
      (sourcesOf target ignore types (dir entries)) := by
  rw [selectedFiles, sourcesOf]
  induction (dir entries).sortedFiles.filter (·.isWanted ignore types) with
  | nil => exact .nil
  | cons file rest ih =>
    have hsome : (decode? file.bytes).isSome =
        (file.toSource? (target.append file.location)).isSome := by
      rw [FoundFile.toSource?, Option.isSome_map]
    -- Whether a file gives a source does not depend on the path under which it is read.
    rw [List.filter_cons, List.filterMap_cons, hsome]
    cases hsource : file.toSource? (target.append file.location) with
    | none => exact ih
    | some source => exact .cons (FoundFile.readAs_of_toSource?_eq_some hsource) ih

/-- Whether a file stands in a tree is seen at its location. -/
theorem standsIn_iff_glance? {tree : Tree} {file : FoundFile} :
    file.StandsIn tree ↔
      tree.glance? (file.location.map .text) = some (.file file.bytes file.modified) := by
  rw [FoundFile.StandsIn, glance?]
  cases htree : tree.at? (file.location.map .text) with
  | none => simp
  | some found => cases found <;> simp [bare]

/-- Two directories in which the same is seen everywhere have the same selected files. -/
theorem selectedFiles_congr {others : List (Name × Tree)} (h : (dir entries).locations.Nodup)
    (hothers : (dir others).locations.Nodup)
    (hsame : ∀ location, (dir entries).glance? location = (dir others).glance? location)
    (ignore types : List String) :
    (dir entries).selectedFiles ignore types = (dir others).selectedFiles ignore types := by
  -- Both lists are strictly ascending, so they are equal as soon as they have the same members.
  have hasc := pairwise_selectedFiles h ignore types
  have hasc' := pairwise_selectedFiles hothers ignore types
  have hperm : ((dir entries).selectedFiles ignore types).Perm
      ((dir others).selectedFiles ignore types) := by
    refine (List.perm_ext_iff_of_nodup ?_ ?_).mpr fun file => ?_
    · exact hasc.imp fun hlt heq => absurd hlt (by simp [heq])
    · exact hasc'.imp fun hlt heq => absurd hlt (by simp [heq])
    · have hstands : file.StandsIn (dir entries) ↔ file.StandsIn (dir others) := by
        rw [standsIn_iff_glance?, standsIn_iff_glance?, hsame]
      rw [mem_selectedFiles_iff h, mem_selectedFiles_iff hothers]
      exact ⟨fun hfile => ⟨hstands.mp hfile.stands, hfile.clear, hfile.typed, hfile.text⟩,
        fun hfile => ⟨hstands.mpr hfile.stands, hfile.clear, hfile.typed, hfile.text⟩⟩
  exact hperm.eq_of_pairwise (fun a b _ _ hab hba => absurd hab (lt_asymm hba)) hasc hasc'

end Tree

/-! ## Targets -/

namespace FileSystem

/-- No path from a target to anything below it is too long. -/
def Reaches (target : Path) (tree : Tree) : Prop :=
  ∀ location ∈ tree.locations, admits (target.route.append location) = true

/-- A path can be followed, as far as its length and the lengths of its names go. -/
structure Followable (path : Path) : Prop where
  admitted : admits path.route = true
  names : ∀ name ∈ path.route.names, name.byteCount ≤ maxNameBytes

/-- Following names fails for their length only at a name that is too long. -/
theorem exists_of_follow_eq_tooLong {tree : Tree} {location names : List Name}
    (h : follow tree location names = .error .tooLong) :
    ∃ name ∈ names, maxNameBytes < name.byteCount := by
  fun_induction follow tree location names with
  | case1 => cases h
  | case2 => cases h
  | case3 location rest entries hentries ih =>
    obtain ⟨other, hother, hlong⟩ := ih h
    exact ⟨other, List.mem_cons_of_mem _ hother, hlong⟩
  | case4 location name rest entries hentries hup hlong => exact ⟨name, List.mem_cons_self, hlong⟩
  | case5 location name rest entries hentries hup hshort hknown ih =>
    obtain ⟨other, hother, hlong⟩ := ih h
    exact ⟨other, List.mem_cons_of_mem _ hother, hlong⟩
  | case6 => cases h

variable {fs : FileSystem} {path : Path}

/-- What is found at the location that a route leads to. -/
theorem find_of_locate_eq_ok {route : Route} {location : List Name} {found : Tree}
    (hlocate : fs.locate route = .ok location) (hfound : fs.tree.at? location = some found) :
    fs.find route = .ok found := by
  simp only [find, hlocate, bind, Except.bind, hfound]

/-- Nothing fails for its length on a path that can be followed. -/
theorem Followable.find_ne_tooLong (h : Followable path) : fs.find path.route ≠ .error .tooLong := by
  intro hfind
  have hlocate : fs.locate path.route = .error .tooLong := by
    rw [find] at hfind
    cases hlocation : fs.locate path.route with
    | error cause =>
      rw [hlocation] at hfind
      exact congrArg _ (Except.error.inj hfind)
    | ok location =>
      simp only [hlocation, bind, Except.bind] at hfind
      split at hfind <;> cases hfind
  rw [locate, h.admitted] at hlocate
  split at hlocate
  · cases hlocate
  · obtain ⟨name, hname, hlong⟩ := exists_of_follow_eq_tooLong hlocate
    exact absurd (h.names name hname) (not_le.mpr hlong)

/-- A target gives its sources if all paths below it are short enough. -/
theorem scan_of_find_eq_ok {target : String} {found : Tree}
    (hfind : fs.find (Path.ofString target).route = .ok found)
    (hreaches : Reaches (Path.ofString target) found) (ignore types : List String) :
    fs.scan target ignore types = .ok (sourcesOf (Path.ofString target) ignore types found) := by
  simp only [scan, hfind]
  rw [if_pos (List.all_eq_true.mpr hreaches)]

/-- A scan gives nothing if a path below the target is too long. -/
theorem scan_of_not_reaches {target : String} {found : Tree}
    (hfind : fs.find (Path.ofString target).route = .ok found)
    (hbeyond : ¬Reaches (Path.ofString target) found) (ignore types : List String) :
    fs.scan target ignore types = .error .unusable := by
  simp only [scan, hfind]
  rw [if_neg (mt List.all_eq_true.mp hbeyond)]

/-- A directory with a file that is two levels below it, one whose name sorts between the levels, and
files that are left: for their type, their name, their bytes and their missing extension. -/
def mixedEntries : List (Name × Tree) :=
  [(.text "a-c.ts", .file "/** @summary C. */".toUTF8 5),
    (.text "a", .dir [(.text "b.ts", .file "b".toUTF8 7), (.text "notes.md", .file "".toUTF8 0)]),
    (.text "skip.ts", .file "".toUTF8 0),
    (.text "bad.ts", .file ⟨#[0xff]⟩ 0),
    (.text ".ts", .file "".toUTF8 0)]

/-- A scan of a directory gives one source for each file that is selected, in the strict order of
the paths, as long as no path below the directory is too long; otherwise it gives nothing. A target
that does not exist is reported as missing, unless its path or one of its names is too long. Files are
those on the way to which all names are texts. -/
theorem scan_selects (fs : FileSystem) (target : String) (ignore types : List String) :
    (∀ entries, fs.find (Path.ofString target).route = .ok (.dir entries) →
      (Tree.dir entries).locations.Nodup →
        (Reaches (Path.ofString target) (.dir entries) →
          ∃ files sources, fs.scan target ignore types = .ok sources ∧
            List.Forall₂ (FoundFile.ReadAs (Path.ofString target)) files sources ∧
            (files.Pairwise fun a b => a.location < b.location) ∧
            ∀ file, file ∈ files ↔ file.Selected (.dir entries) ignore types) ∧
        (¬Reaches (Path.ofString target) (.dir entries) →
          fs.scan target ignore types = .error .unusable)) ∧
    ((∀ found, fs.find (Path.ofString target).route ≠ .ok found) →
      fs.scan target ignore types = .error (.missing (Path.ofString target).toString) ∨
        ¬Followable (Path.ofString target) ∧ fs.scan target ignore types = .error .unusable) := by
  refine ⟨fun entries hfind hnodup => ⟨fun hreaches => ?_, fun hbeyond => ?_⟩, fun hnone => ?_⟩
  · exact ⟨(Tree.dir entries).selectedFiles ignore types, _,
      scan_of_find_eq_ok hfind hreaches ignore types,
      Tree.forall₂_sourcesOf entries (Path.ofString target) ignore types,
      Tree.pairwise_selectedFiles hnodup ignore types, fun _ => Tree.mem_selectedFiles_iff hnodup⟩
  · exact scan_of_not_reaches hfind hbeyond ignore types
  · rw [scan]
    cases hfind : fs.find (Path.ofString target).route with
    | ok found => exact absurd hfind (hnone found)
    | error cause =>
      cases cause with
      | tooLong => exact Or.inr ⟨fun hfollow => hfollow.find_ne_tooLong hfind, rfl⟩
      | notFound | notDirectory | alreadyThere | isDirectory | nullCharacter => exact Or.inl rfl

/-- The mixed directory is scanned under a name that is ignored below it. -/
theorem scan_selects_mixed :
    let fs := around (.dir [(.text "skip", .dir mixedEntries)])
    fs.find (Path.ofString "skip").route = .ok (.dir mixedEntries) ∧
    (Tree.dir mixedEntries).locations.Nodup ∧
    Reaches (Path.ofString "skip") (.dir mixedEntries) ∧
    (∃ files sources, fs.scan "skip" ["skip"] ["ts"] = .ok sources ∧
      List.Forall₂ (FoundFile.ReadAs (Path.ofString "skip")) files sources ∧
      (files.Pairwise fun a b => a.location < b.location) ∧
      ∀ file, file ∈ files ↔ file.Selected (.dir mixedEntries) ["skip"] ["ts"]) ∧
    fs.scan "lib" ["skip"] ["ts"] = .error (.missing "lib") := by
  have hfind : (around (.dir [(.text "skip", .dir mixedEntries)])).find (Path.ofString "skip").route =
      .ok (.dir mixedEntries) := rfl
  have hnodup : (Tree.dir mixedEntries).locations.Nodup := by decide
  have hreaches : Reaches (Path.ofString "skip") (.dir mixedEntries) := by
    unfold Reaches
    decide +kernel
  refine ⟨hfind, hnodup, hreaches, ?_, ?_⟩
  · exact ((scan_selects _ "skip" ["skip"] ["ts"]).1 mixedEntries hfind hnodup).1 hreaches
  · have hshort : Followable (Path.ofString "lib") := ⟨by decide, by decide +kernel⟩
    refine ((scan_selects _ "lib" ["skip"] ["ts"]).2 fun found h => ?_).resolve_right fun hlong =>
      hlong.1 hshort
    cases h

/-- A target of one name that is too long does not exist and is not reported as missing. -/
theorem scan_overlong_name :
    let fs := around (.dir [])
    let target := String.ofList (List.replicate 256 'n')
    (∀ found, fs.find (Path.ofString target).route ≠ .ok found) ∧
    fs.scan target [] ["ts"] = .error .unusable := by
  intro fs target
  have htarget : Path.ofString target = { root := "", segments := [target] } := by
    rw [Path.ofString, String.toList_ofList]
    decide +kernel
  have hnull : (Path.ofString target).route.hasNull = false := by
    simp only [htarget, Path.route, Route.hasNull, List.map_cons, List.map_nil, List.any_cons,
      List.any_nil, Name.hasNull, target, String.toList_ofList]
    decide +kernel
  have hlocate : fs.locate (Path.ofString target).route = .error .tooLong := by
    rw [locate, hnull, htarget]
    decide +kernel
  refine ⟨fun found h => ?_, ?_⟩
  · rw [find, hlocate] at h
    cases h
  · rw [scan, find, hlocate]
    rfl

/-! ## Moved directories -/

/-- A source is another one below another target, at the same location and with the same content and
date. -/
structure MovedTo (target elsewhere : Path) (source moved : SourceFile) : Prop where
  path : ∃ location, source.path = (target.append location).toString ∧
    moved.path = (elsewhere.append location).toString
  content : moved.content = source.content
  modified : moved.modified = source.modified

/-- What is read from one file below two targets. -/
theorem movedTo_of_readAs {target elsewhere : Path} {file : FoundFile} {source moved : SourceFile}
    (hsource : file.ReadAs target source) (hmoved : file.ReadAs elsewhere moved) :
    MovedTo target elsewhere source moved := by
  obtain ⟨text, htext, hcontent⟩ := hsource.content
  obtain ⟨same, hsame, hcopied⟩ := hmoved.content
  obtain rfl : text = same := String.toByteArray_inj.mp (htext.trans hsame.symm)
  exact ⟨⟨file.location, hsource.path, hmoved.path⟩, hcopied.trans hcontent.symm,
    hmoved.modified.trans hsource.modified.symm⟩

/-- What is read from the same files below two targets. -/
theorem forall₂_movedTo {target elsewhere : Path} {files : List FoundFile}
    {sources moved : List SourceFile} (hsources : List.Forall₂ (FoundFile.ReadAs target) files sources)
    (hmoved : List.Forall₂ (FoundFile.ReadAs elsewhere) files moved) :
    List.Forall₂ (MovedTo target elsewhere) sources moved := by
  induction hsources generalizing moved with
  | nil =>
    cases hmoved
    exact .nil
  | cons hsource _ ih =>
    obtain ⟨first, rest, hfirst, hrest, rfl⟩ := List.forall₂_cons_left_iff.mp hmoved
    exact .cons (movedTo_of_readAs hsource hfirst) (ih hrest)

/-- Two directories that hold the same are scanned with the same result, up to the paths of the
directories, as long as no path below either of them is too long. Only files on the way to which all
names are texts are compared. -/
theorem scan_moved {fs other : FileSystem} {target elsewhere : String}
    {entries copies : List (Name × Tree)}
    (hfind : fs.find (Path.ofString target).route = .ok (.dir entries))
    (hcopy : other.find (Path.ofString elsewhere).route = .ok (.dir copies))
    (hentries : (Tree.dir entries).locations.Nodup) (hcopies : (Tree.dir copies).locations.Nodup)
    (hsame : ∀ location, (Tree.dir entries).glance? location = (Tree.dir copies).glance? location)
    (hreaches : Reaches (Path.ofString target) (.dir entries))
    (hreachesCopy : Reaches (Path.ofString elsewhere) (.dir copies)) (ignore types : List String) :
    ∃ sources moved, fs.scan target ignore types = .ok sources ∧
      other.scan elsewhere ignore types = .ok moved ∧
      List.Forall₂ (MovedTo (Path.ofString target) (Path.ofString elsewhere)) sources moved := by
  refine ⟨_, _, scan_of_find_eq_ok hfind hreaches ignore types,
    scan_of_find_eq_ok hcopy hreachesCopy ignore types, ?_⟩
  refine forall₂_movedTo (Tree.forall₂_sourcesOf entries _ ignore types) ?_
  rw [Tree.selectedFiles_congr hentries hcopies hsame]
  exact Tree.forall₂_sourcesOf copies _ ignore types

/-- The mixed directory gives the same below a name that is ignored in it and below one of its own
names. -/
theorem scan_moved_mixed :
    let fs := around (.dir [(.text "skip", .dir mixedEntries),
      (.text "lib", .dir [(.text "a-c.ts", .dir mixedEntries)])])
    fs.find (Path.ofString "skip").route = .ok (.dir mixedEntries) ∧
    fs.find (Path.ofString "lib/a-c.ts").route = .ok (.dir mixedEntries) ∧
    (Tree.dir mixedEntries).locations.Nodup ∧
    Reaches (Path.ofString "skip") (.dir mixedEntries) ∧
    Reaches (Path.ofString "lib/a-c.ts") (.dir mixedEntries) ∧
    ∃ sources moved, fs.scan "skip" ["skip", "lib"] ["ts"] = .ok sources ∧
      fs.scan "lib/a-c.ts" ["skip", "lib"] ["ts"] = .ok moved ∧
      List.Forall₂ (MovedTo (Path.ofString "skip") (Path.ofString "lib/a-c.ts")) sources moved := by
  intro fs
  have hfind : fs.find (Path.ofString "skip").route = .ok (.dir mixedEntries) := rfl
  have hcopy : fs.find (Path.ofString "lib/a-c.ts").route = .ok (.dir mixedEntries) := rfl
  have hnodup : (Tree.dir mixedEntries).locations.Nodup := by decide
  have hreaches : Reaches (Path.ofString "skip") (.dir mixedEntries) := by
    unfold Reaches
    decide +kernel
  have hreachesCopy : Reaches (Path.ofString "lib/a-c.ts") (.dir mixedEntries) := by
    unfold Reaches
    decide +kernel
  exact ⟨hfind, hcopy, hnodup, hreaches, hreachesCopy,
    scan_moved hfind hcopy hnodup hnodup (fun _ => rfl) hreaches hreachesCopy ["skip", "lib"] ["ts"]⟩

/-- A directory with one file that is wanted and one with a long name that is not. -/
def wideEntries : List (Name × Tree) :=
  [(.text "x.ts", .file "x".toUTF8 0),
    (.text (String.ofList (List.replicate 200 'n')), .file "".toUTF8 0)]

/-- A way that leads in and out of a directory many times and in again. -/
def detour : List String :=
  (List.replicate 800 ["a", ".."]).flatten ++ ["a"]

/-- The same directory is scanned from nearby, and not at all at the end of a long way, on which the
path of the file that is not wanted becomes too long. -/
theorem scan_detour :
    let fs := around (.dir [(.text "a", .dir wideEntries)])
    let target := "/".intercalate detour
    fs.find (Path.ofString "a").route = .ok (.dir wideEntries) ∧
    fs.find (Path.ofString target).route = .ok (.dir wideEntries) ∧
    (∃ sources, fs.scan "a" [] ["ts"] = .ok sources) ∧
    fs.scan target [] ["ts"] = .error .unusable := by
  intro fs target
  have htarget : Path.ofString target = { root := "", segments := detour } := by
    refine Path.ofString_intercalate (List.append_ne_nil_of_right_ne_nil _ (by simp)) ?_
    decide +kernel
  have hlocate : fs.locate (Path.ofString target).route = .ok [unknownName, .text "a"] := by
    rw [htarget]
    decide +kernel
  have hfind : fs.find (Path.ofString target).route = .ok (.dir wideEntries) :=
    find_of_locate_eq_ok hlocate rfl
  have hbeyond : ¬Reaches (Path.ofString target) (.dir wideEntries) := by
    rw [htarget, Reaches]
    decide +kernel
  have hnear : fs.find (Path.ofString "a").route = .ok (.dir wideEntries) := rfl
  have hreaches : Reaches (Path.ofString "a") (.dir wideEntries) := by
    unfold Reaches
    decide +kernel
  exact ⟨hnear, hfind, ⟨_, scan_of_find_eq_ok hnear hreaches [] ["ts"]⟩,
    scan_of_not_reaches hfind hbeyond [] ["ts"]⟩

end FileSystem

end DocAtlas
