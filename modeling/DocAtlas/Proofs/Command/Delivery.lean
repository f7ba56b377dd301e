import DocAtlas.Command
import DocAtlas.Proofs.FileSystem.Changes
import DocAtlas.Proofs.Text.Pieces

/-!
# Delivering documents

The documents of a build are those of the wanted forms. Where one of them goes is decided by its
name: a name that is one segment leads into the output directory, any other one wherever the route
leads from there. To deliver documents is to make the output directory, with the directories that
are missing on the way to it, and to write each of them where it goes. Nothing else changes.
-/

namespace DocAtlas

/-! ## The names of documents -/

namespace Keyed

variable {κ α : Type} [DecidableEq κ]

/-- Putting a value under a name adds that name. -/
theorem mem_map_fst_put_iff (name : κ) (value : α) (found : List (κ × α)) (other : κ) :
    other ∈ (put name value found).map Prod.fst ↔ other = name ∨ other ∈ found.map Prod.fst := by
  induction found with
  | nil => simp [put]
  | cons first rest ih =>
    obtain ⟨known, old⟩ := first
    by_cases h : known = name
    · simp [put, h]
    · rw [put, if_neg h, List.map_cons, List.mem_cons, ih, List.map_cons, List.mem_cons]
      exact or_left_comm

/-- The last pair is put on top of the others. -/
theorem ofPairs_concat (pairs : List (κ × α)) (pair : κ × α) :
    ofPairs (pairs ++ [pair]) = put pair.1 pair.2 (ofPairs pairs) := by
  rw [ofPairs, List.foldl_append]
  rfl

/-- A keyed list has the names of its pairs. -/
theorem mem_map_fst_ofPairs_iff (pairs : List (κ × α)) (name : κ) :
    name ∈ (ofPairs pairs).map Prod.fst ↔ name ∈ pairs.map Prod.fst := by
  induction pairs using List.reverseRecOn with
  | nil => rfl
  | append_singleton rest last ih =>
    rw [ofPairs_concat, mem_map_fst_put_iff, ih, List.map_append, List.mem_append,
      List.map_singleton, List.mem_singleton]
    exact or_comm

end Keyed

/-- The names of the documents of one form. -/
def Format.documentNames (name : String) : Format → List String
  | .json =>
    [name ++ ".json", "processed.json", "namespaces.json", "modules.json", "files.json",
     "elements.json"]
  | .md => [name ++ ".md"]
  | .html => [name ++ ".html"]

/-- The documents of a build are those of the wanted forms. -/
theorem Build.mem_map_fst_documents_iff (build : Build) (options : Options) (name : String) :
    name ∈ (build.documents options).map Prod.fst ↔
      ∃ format ∈ options.formats, name ∈ format.documentNames options.outputName := by
  have hnames (format : Format) : (build.documentsOf options format).map Prod.fst =
      format.documentNames options.outputName := by
    cases format <;> rfl
  have hall (format : Format) : format ∈ [Format.json, .md, .html] := by
    cases format <;> simp
  rw [documents, Keyed.mem_map_fst_ofPairs_iff, List.map_flatMap, List.mem_flatMap]
  simp only [hnames, List.mem_filter, decide_eq_true_eq, hall, true_and]

/-- The names of documents are at least three characters long. They are one segment if the given
name is. -/
theorem Format.of_mem_documentNames {name document : String} {format : Format}
    (h : document ∈ format.documentNames name) :
    3 ≤ document.length ∧ ('/' ∉ name.toList → '/' ∉ document.toList) := by
  have hending {ending : String} (hlength : 3 ≤ ending.length) (hslash : '/' ∉ ending.toList) :
      3 ≤ (name ++ ending).length ∧ ('/' ∉ name.toList → '/' ∉ (name ++ ending).toList) := by
    rw [String.length_append, String.toList_append, List.mem_append]
    exact ⟨by omega, fun hname => not_or.mpr ⟨hname, hslash⟩⟩
  cases format with
  | json =>
    rcases List.mem_cons.mp h with rfl | h
    · exact hending (by decide) (by decide)
    · have hfixed : ∀ document ∈ ["processed.json", "namespaces.json", "modules.json", "files.json",
          "elements.json"], 3 ≤ document.length ∧ '/' ∉ document.toList := by decide
      exact ⟨(hfixed document h).1, fun _ => (hfixed document h).2⟩
  | md =>
    obtain rfl := List.mem_singleton.mp h
    exact hending (by decide) (by decide)
  | html =>
    obtain rfl := List.mem_singleton.mp h
    exact hending (by decide) (by decide)

/-- A text without slashes that is long enough to be no dots is a path of one segment. -/
theorem Path.ofString_of_notMem {s : String} (hslash : '/' ∉ s.toList) (hlength : 3 ≤ s.length) :
    Path.ofString s = { root := "", segments := [s] } := by
  have hroot : s.toList.takeWhile (· == '/') = [] := by
    cases hs : s.toList with
    | nil => rfl
    | cons first rest =>
      have hfirst : first ≠ '/' := fun heq => hslash (by rw [hs, heq]; exact List.mem_cons_self)
      exact List.takeWhile_cons_of_neg (by simpa using hfirst)
  have hpieces : pieces '/' '.' s.toList = [s.toList] := by
    have hdots : s.toList ≠ [] ∧ s.toList ≠ ['.'] := by
      rw [← String.length_toList] at hlength
      constructor <;> intro heq <;> simp [heq] at hlength
    simp [pieces, Text.splitWhere_of_not_mem hslash, hdots]
  rw [ofString, hroot, hpieces, List.map_singleton, String.ofList_toList]
  rfl

namespace Command

variable {fs after : FileSystem} {out : Route}

/-- Where a document goes. -/
def documentPlace (fs : FileSystem) (out : Route) (name : String) : List Name :=
  fs.place (out.join (Path.ofString name).route)

/-- A document whose name is one segment goes into the output directory. -/
theorem documentPlace_of_notMem (fs : FileSystem) (out : Route) {name : String}
    (hslash : '/' ∉ name.toList) (hlength : 3 ≤ name.length) :
    documentPlace fs out name = fs.place out ++ [.text name] := by
  have hup : Name.text name ≠ .up := by
    intro h
    obtain rfl : name = ".." := by simpa [Name.up] using h
    exact absurd hlength (by decide)
  rw [documentPlace, Path.ofString_of_notMem hslash hlength]
  exact fs.place_concat out.root out.names hup

/-- What documents leave at a location: the text of the last one that goes there. -/
def writtenAt (fs : FileSystem) (out : Route) (documents : Documents) (location : List Name) :
    Option Tree :=
  (documents.findRev? fun (name, _) => documentPlace fs out name = location).map
    fun (_, text) => .file (text.getD "").toUTF8 0

/-- What documents leave behind depends on the working directory alone. -/
theorem writtenAt_congr (h : after.here = fs.here) (out : Route) (documents : Documents) :
    writtenAt after out documents = writtenAt fs out documents := by
  have hplace : documentPlace after out = documentPlace fs out :=
    funext fun _ => FileSystem.place_congr h _
  funext location
  rw [writtenAt, writtenAt, hplace]

/-- A document leaves its text where it goes, unless a later one goes there too. -/
theorem writtenAt_cons (fs : FileSystem) (out : Route) (name : String) (text : Option String)
    (rest : Documents) (location : List Name) :
    writtenAt fs out ((name, text) :: rest) location =
      (writtenAt fs out rest location).or
        (if location = documentPlace fs out name then some (.file (text.getD "").toUTF8 0)
        else none) := by
  rw [writtenAt, List.findRev?, writtenAt]
  cases rest.findRev? fun (name, _) => documentPlace fs out name = location with
  | some later => rfl
  | none =>
    by_cases h : location = documentPlace fs out name
    · simp [h]
    · simp [h, Ne.symm h]

/-- A document that was written has a text, which stands where it goes. -/
theorem writeDocument_eq_ok {route : Route} {text : Option String}
    (h : writeDocument fs route text = .ok after) :
    fs.PutAt after (fs.place route) (.file (text.getD "").toUTF8 0) ∧ text.isSome := by
  unfold writeDocument at h
  split at h
  · cases h
  · cases h
  · next written text hwrite =>
    obtain rfl := Except.ok.inj h
    exact ⟨(FileSystem.writeFile_eq_ok hwrite).1, rfl⟩

/-- Documents that were written all have a text, and stand where they go. -/
theorem writeAll_eq_ok {documents : Documents} (h : writeAll out fs documents = .ok after) :
    after.here = fs.here ∧ (∀ document ∈ documents, document.2.isSome) ∧
      ∀ location, after.tree.glance? location =
        (writtenAt fs out documents location).or (fs.tree.glance? location) := by
  induction documents generalizing fs with
  | nil =>
    obtain rfl := Except.ok.inj h
    exact ⟨rfl, List.forall_mem_nil _, fun _ => rfl⟩
  | cons document rest ih =>
    obtain ⟨name, text⟩ := document
    obtain ⟨middle, hmiddle, hrest⟩ := exists_ok_of_bind_eq_ok h
    obtain ⟨hput, htext⟩ := writeDocument_eq_ok hmiddle
    obtain ⟨hhere, htexts, hglance⟩ := ih hrest
    refine ⟨hhere.trans hput.here, List.forall_mem_cons.mpr ⟨htext, htexts⟩, fun location => ?_⟩
    have hmiddle : middle.tree.glance? location =
        (if location = documentPlace fs out name then some (.file (text.getD "").toUTF8 0)
        else none).or (fs.tree.glance? location) := by
      rw [hput.glance, documentPlace]
      split <;> rfl
    rw [hglance, writtenAt_congr hput.here, hmiddle, writtenAt_cons, Option.or_assoc]

/-- Documents were delivered to a directory: it was made, with what was missing on the way to it,
and all of them were written. Nothing else has changed. -/
structure Delivered (fs after : FileSystem) (out : Route) (documents : Documents) : Prop where
  here : after.here = fs.here
  texts : ∀ document ∈ documents, document.2.isSome
  missing : ∀ location ∈ fs.placesTo out,
    fs.tree.glance? location = none ∨ fs.tree.glance? location = some (.dir [])
  glance : ∀ location, after.tree.glance? location =
    (writtenAt fs out documents location).or
      (if location ∈ fs.placesTo out then some (.dir []) else fs.tree.glance? location)

/-- Writing output delivers the documents. -/
theorem writeOutput_eq_ok {documents : Documents} (h : writeOutput out fs documents = .ok after) :
    Delivered fs after out documents := by
  obtain ⟨middle, hmiddle, hwrite⟩ := exists_ok_of_bind_eq_ok h
  obtain ⟨hhere, htexts, hglance⟩ := writeAll_eq_ok hwrite
  have hdirs : fs.ensureDirs out.root out.names.reverse = .ok middle := by
    cases hmade : fs.ensureDirs out.root out.names.reverse with
    | error cause => rw [hmade] at hmiddle; cases hmiddle
    | ok made => rw [hmade] at hmiddle; rw [Except.ok.inj hmiddle]
  have hmade := FileSystem.ensureDirs_eq_ok hdirs
  rw [List.reverse_reverse] at hmade
  refine ⟨hhere.trans hmade.here, htexts, hmade.missing, fun location => ?_⟩
  rw [hglance, hmade.glance, writtenAt_congr hmade.here]

end Command

end DocAtlas
