import DocAtlas.Proofs.Command.Outcomes
import DocAtlas.Proofs.FileSystem.Writing
import DocAtlas.Proofs.Json.Values

/-!
# One file for each document

The wanted documents are collected by their file names. The names of the JSON documents are fixed but
for that of the comments, which is built from the given name like those of the two pages. So the only
names that can meet are those of the comments and of another JSON document, and they do if the given
name is one of five. Then the comments, which come first, are replaced. All other documents are kept,
each in a file of its own.

Whether they can all be written does not depend on their order or on each other, since a file that is
written leaves the directories as they are.
-/

namespace DocAtlas

/-! ## Pairs with distinct names -/

namespace Keyed

variable {κ α : Type} [DecidableEq κ]

/-- Pairs with new and distinct names are put at the end, one after the other. -/
theorem foldl_put_of_nodup {found pairs : List (κ × α)} (h : ((found ++ pairs).map Prod.fst).Nodup) :
    pairs.foldl (fun found (name, value) => put name value found) found = found ++ pairs := by
  induction pairs generalizing found with
  | nil => rw [List.foldl_nil, List.append_nil]
  | cons first rest ih =>
    obtain ⟨name, value⟩ := first
    have hnew : name ∉ found.map Prod.fst := by
      rw [List.map_append, List.map_cons] at h
      exact fun hmem => (List.nodup_append.mp h).2.2 name hmem name List.mem_cons_self rfl
    rw [List.append_cons] at h ⊢
    rw [List.foldl_cons]
    dsimp only
    rw [put_of_notMem hnew, ih h]

/-- In front of pairs with distinct names, a pair with one of their names is lost. -/
theorem ofPairs_cons_perm {name : κ} {rest : List (κ × α)} (h : (rest.map Prod.fst).Nodup)
    (hname : name ∈ rest.map Prod.fst) (old : α) : (ofPairs ((name, old) :: rest)).Perm rest := by
  obtain ⟨⟨known, value⟩, hpair, hknown⟩ := List.mem_map.mp hname
  obtain rfl : known = name := hknown
  obtain ⟨before, after, rfl⟩ := List.append_of_mem hpair
  have hperm : (before ++ (known, value) :: after).Perm ((known, value) :: (before ++ after)) :=
    List.perm_middle
  have hmoved : (((known, value) :: before ++ after).map Prod.fst).Nodup :=
    (hperm.map Prod.fst).nodup_iff.mp h
  have hbefore : (([(known, old)] ++ before).map Prod.fst).Nodup := by
    rw [List.map_append] at hmoved
    exact (List.nodup_append.mp hmoved).1
  -- The new value goes to the place of the old one, and the pairs around it are put behind.
  have hput : ofPairs ((known, old) :: (before ++ (known, value) :: after)) =
      (known, value) :: before ++ after := by
    rw [ofPairs, List.foldl_cons, List.foldl_append, List.foldl_cons]
    dsimp only [put]
    rw [foldl_put_of_nodup hbefore, List.singleton_append, put, if_pos rfl,
      foldl_put_of_nodup hmoved]
  rw [hput]
  exact hperm.symm

end Keyed

/-! ## Documents and their file names -/

/-- A document that a build can give: the comments as they were extracted, the entries and
declarations of the atlas, the elements of the page, or the page in one of its forms. -/
inductive Document where
  | comments
  | entries
  | namespaces
  | modules
  | files
  | elements
  | markdown
  | html
deriving DecidableEq

namespace Document

/-- All documents, in the order in which they are collected. -/
def all : List Document :=
  [comments, entries, namespaces, modules, files, elements, markdown, html]

/-- The form of a document. -/
def format : Document → Format
  | comments | entries | namespaces | modules | files | elements => .json
  | markdown => .md
  | html => .html

/-- The name of a document without its ending: the given one, or a fixed one. -/
def stem (name : String) : Document → String
  | comments | markdown | html => name
  | entries => "processed"
  | namespaces => "namespaces"
  | modules => "modules"
  | files => "files"
  | elements => "elements"

/-- The file name of a document. -/
def fileName (name : String) (document : Document) : String :=
  document.stem name ++ "." ++ document.format.name

/-- The text of a document, nothing if half of a surrogate pair would stand alone in it. -/
def text? (build : Build) (options : Options) : Document → Option String
  | comments => some (Json.arr (build.comments.map Comment.toJson)).write
  | entries => some (Json.arr (build.atlas.entries.map Entry.toJson)).write
  | namespaces => some (Json.arr (build.atlas.namespaces.map Declaration.toJson)).write
  | modules => some (Json.arr (build.atlas.modules.map Declaration.toJson)).write
  | files => some (Json.arr (build.atlas.files.map FileDeclaration.toJson)).write
  | elements => some (Json.arr (Element.Node.allToJson build.forest)).write
  | markdown => build.markdown? options
  | html => build.html? options

/-- The names under which the comments would have the file name of another document. -/
def reservedNames : List String :=
  ["processed", "namespaces", "modules", "files", "elements"]

/-- A file name tells the form and the name without the ending. -/
theorem fileName_inj {name : String} {document other : Document}
    (h : document.fileName name = other.fileName name) :
    document.format = other.format ∧ document.stem name = other.stem name := by
  have hformat : document.format = other.format := by
    -- The forms end with different letters.
    have hlast (format : Format) (stem : String) :
        (stem ++ "." ++ format.name).toList.getLast? = format.name.toList.getLast? := by
      cases format <;> simp [Format.name, String.toList_append]
    have hletter : document.format.name.toList.getLast? = other.format.name.toList.getLast? := by
      rw [← hlast _ (document.stem name), ← hlast other.format (other.stem name)]
      exact congrArg (·.toList.getLast?) h
    revert hletter
    generalize document.format = first, other.format = second
    cases first <;> cases second <;> decide
  refine ⟨hformat, ?_⟩
  rw [fileName, fileName, hformat] at h
  simpa using h

/-- Where the other JSON documents go, the comments go under a reserved name. -/
theorem stem_mem_reservedNames (name : String) {document : Document} (hformat : document.format = .json)
    (h : document ≠ comments) : document.stem name ∈ reservedNames := by
  cases document with
  | comments => exact absurd rfl h
  | markdown => cases hformat
  | html => cases hformat
  | _ => simp [stem, reservedNames]

/-- The documents but for the comments have file names of their own. -/
theorem eq_of_stem_eq {name : String} {document other : Document}
    (hformat : document.format = other.format) (hdocument : document ≠ comments)
    (hother : other ≠ comments) (h : document.stem name = other.stem name) : document = other := by
  cases document <;> cases other <;> simp_all [stem, format]

/-- Only the comments can share their file name, and only under a reserved name. -/
theorem eq_of_fileName_eq {name : String} {document other : Document}
    (h : document.fileName name = other.fileName name)
    (hcomments : document = comments ∨ other = comments → name ∉ reservedNames) :
    document = other := by
  obtain ⟨hformat, hstem⟩ := fileName_inj h
  by_cases hdocument : document = comments
  · subst hdocument
    by_contra hne
    have hmem := stem_mem_reservedNames name hformat.symm (Ne.symm hne)
    rw [← hstem] at hmem
    exact hcomments (Or.inl rfl) hmem
  · by_cases hother : other = comments
    · subst hother
      have hmem := stem_mem_reservedNames name hformat hdocument
      rw [hstem] at hmem
      exact absurd hmem (hcomments (Or.inr rfl))
    · exact eq_of_stem_eq hformat hdocument hother hstem

end Document

/-! ## The documents that are kept -/

namespace Options

/-- The documents of the wanted forms. -/
def wanted (options : Options) : List Document :=
  Document.all.filter fun document => document.format ∈ options.formats

/-- The wanted documents that are not replaced by another one. -/
def kept (options : Options) : List Document :=
  options.wanted.filter fun document =>
    document = .comments → options.outputName ∉ Document.reservedNames

end Options

/-- The file name and the text of a document. -/
def Document.toPair (build : Build) (options : Options) (document : Document) :
    String × Option String :=
  (document.fileName options.outputName, document.text? build options)

/-- The documents of one form are collected in order. -/
theorem Build.documentsOf_eq (build : Build) (options : Options) (format : Format) :
    build.documentsOf options format =
      (Document.all.filter (·.format = format)).map (Document.toPair build options) := by
  cases format <;> simp [documentsOf, jsonDocuments, Document.all, Document.toPair, Document.fileName,
    Document.stem, Document.format, Format.name, Document.text?, String.append_assoc]

/-- The documents of a build are collected from the wanted ones. -/
theorem Build.documents_eq (build : Build) (options : Options) :
    build.documents options = Keyed.ofPairs (options.wanted.map (Document.toPair build options)) := by
  have hforms : options.wanted = ([.json, .md, .html].filter (· ∈ options.formats)).flatMap
      fun format => Document.all.filter (·.format = format) := by
    by_cases hjson : Format.json ∈ options.formats <;> by_cases hmd : Format.md ∈ options.formats <;>
      by_cases hhtml : Format.html ∈ options.formats <;>
      simp [hjson, hmd, hhtml, Options.wanted, Document.all, Document.format]
  rw [documents, hforms, List.map_flatMap, funext (build.documentsOf_eq options)]

namespace Options

variable {options : Options} {document : Document}

/-- A document is wanted if its form is. -/
theorem mem_wanted_iff : document ∈ options.wanted ↔ document.format ∈ options.formats := by
  have hall : document ∈ Document.all := by
    cases document <;> simp [Document.all]
  rw [wanted, List.mem_filter, decide_eq_true_eq]
  exact and_iff_right hall

/-- The documents that are kept have file names of their own. -/
theorem eq_of_mem_kept {other : Document} (hdocument : document ∈ options.kept)
    (hother : other ∈ options.kept)
    (h : document.fileName options.outputName = other.fileName options.outputName) :
    document = other := by
  rw [kept, List.mem_filter, decide_eq_true_eq] at hdocument hother
  exact Document.eq_of_fileName_eq h (Or.rec hdocument.2 hother.2)

/-- The file names of the documents that are kept are distinct. -/
theorem nodup_fileName_kept (options : Options) :
    (options.kept.map (Document.fileName options.outputName)).Nodup := by
  have hnodup : options.kept.Nodup := ((by decide : Document.all.Nodup).filter _).filter _
  exact hnodup.map_on fun document hdocument other hother => eq_of_mem_kept hdocument hother

/-- All wanted documents are kept unless the comments are among them and have a reserved name. -/
theorem kept_eq_wanted_iff :
    options.kept = options.wanted ↔
      (.json ∈ options.formats → options.outputName ∉ Document.reservedNames) := by
  rw [kept, List.filter_eq_self]
  simp only [mem_wanted_iff, decide_eq_true_eq]
  constructor
  · intro h hjson
    exact h .comments hjson rfl
  · intro h document hformat hcomments
    subst hcomments
    exact h hformat

end Options

/-- A reserved name is that of another JSON document. -/
theorem Document.exists_of_mem_reservedNames {name : String} (h : name ∈ reservedNames) :
    ∃ document, document ≠ comments ∧ document.format = .json ∧ document.stem name = name := by
  simp only [reservedNames, List.mem_cons, List.not_mem_nil, or_false] at h
  rcases h with rfl | rfl | rfl | rfl | rfl
  · exact ⟨entries, by decide, rfl, rfl⟩
  · exact ⟨namespaces, by decide, rfl, rfl⟩
  · exact ⟨modules, by decide, rfl, rfl⟩
  · exact ⟨files, by decide, rfl, rfl⟩
  · exact ⟨elements, by decide, rfl, rfl⟩

/-- Under a reserved name the comments come first and are not kept. -/
theorem Options.wanted_eq_cons {options : Options} (hjson : .json ∈ options.formats)
    (hname : options.outputName ∈ Document.reservedNames) :
    options.wanted = .comments :: options.kept := by
  let others := Document.all.tail.filter (·.format ∈ options.formats)
  have hwanted : options.wanted = .comments :: others :=
    List.filter_cons_of_pos (decide_eq_true hjson)
  have hothers : ∀ document ∈ Document.all.tail, document ≠ .comments := by decide
  have hkept : options.kept = others := by
    rw [kept, hwanted, List.filter_cons_of_neg (by simp [hname]), List.filter_eq_self]
    intro document hdocument
    have hne := hothers document (List.mem_of_mem_filter hdocument)
    exact decide_eq_true fun heq => absurd heq hne
  rw [hwanted, hkept]

/-- A build gives the documents that are kept, each with its file name and its text. -/
theorem Build.documents_perm (build : Build) (options : Options) :
    (build.documents options).Perm (options.kept.map (Document.toPair build options)) := by
  have hnames : ((options.kept.map (Document.toPair build options)).map Prod.fst).Nodup := by
    rw [List.map_map]
    exact options.nodup_fileName_kept
  rw [documents_eq]
  by_cases hlost : .json ∈ options.formats ∧ options.outputName ∈ Document.reservedNames
  · obtain ⟨hjson, hname⟩ := hlost
    rw [Options.wanted_eq_cons hjson hname, List.map_cons]
    refine Keyed.ofPairs_cons_perm hnames ?_ _
    obtain ⟨document, hne, hformat, hstem⟩ := Document.exists_of_mem_reservedNames hname
    have hkept : document ∈ options.kept := by
      rw [Options.kept, List.mem_filter, Options.mem_wanted_iff, hformat]
      exact ⟨hjson, decide_eq_true fun heq => absurd heq hne⟩
    rw [List.map_map, List.mem_map]
    refine ⟨document, hkept, ?_⟩
    change document.fileName _ = Document.fileName _ .comments
    rw [Document.fileName, Document.fileName, hstem, hformat]
    rfl
  · rw [← Options.kept_eq_wanted_iff.mpr fun hjson hname => hlost ⟨hjson, hname⟩]
    exact List.Perm.of_eq (Keyed.foldl_put_of_nodup hnames)

/-! ## Writing the documents -/

namespace Command

variable {fs after : FileSystem} {out : Route}

/-- A document is written if it has a text and its file is written. -/
theorem writeDocument_eq_ok_iff {route : Route} {text : Option String} :
    writeDocument fs route text = .ok after ↔
      ∃ s : String, text = some s ∧ fs.writeFile route s.toUTF8 = .ok after := by
  cases text with
  | none =>
    simp only [writeDocument, reduceCtorEq, false_and, exists_false, iff_false]
    split <;> simp_all
  | some s =>
    simp only [writeDocument, Option.getD_some, Option.some.injEq, exists_eq_left']
    split <;> simp_all

/-- Documents can be written one after the other exactly if each of them has a text and can be
written at the beginning. -/
theorem exists_writeAll_eq_iff {documents : Documents} :
    (∃ after, writeAll out fs documents = .ok after) ↔
      ∀ document ∈ documents, document.2.isSome ∧
        fs.CanWrite (out.join (Path.ofString document.1).route) := by
  induction documents generalizing fs with
  | nil => exact iff_of_true ⟨fs, rfl⟩ (List.forall_mem_nil _)
  | cons document rest ih =>
    obtain ⟨name, text⟩ := document
    have hsame {middle : FileSystem}
        (hmiddle : writeDocument fs (out.join (Path.ofString name).route) text = .ok middle) :
        FileSystem.SameDirs fs middle := by
      obtain ⟨s, -, hwrite⟩ := writeDocument_eq_ok_iff.mp hmiddle
      exact FileSystem.sameDirs_of_writeFile_eq_ok hwrite
    rw [List.forall_mem_cons]
    constructor
    · intro h
      obtain ⟨after, h⟩ := h
      obtain ⟨middle, hmiddle, hrest⟩ := exists_ok_of_bind_eq_ok h
      obtain ⟨s, rfl, hwrite⟩ := writeDocument_eq_ok_iff.mp hmiddle
      refine ⟨⟨rfl, ((FileSystem.SameDirs.refl fs).canWrite_iff _).mpr ⟨middle, hwrite⟩⟩, ?_⟩
      intro document hdocument
      obtain ⟨htext, hcan⟩ := ih.mp ⟨after, hrest⟩ document hdocument
      exact ⟨htext, ((hsame hmiddle).canWrite_iff _).mp hcan⟩
    · intro h
      obtain ⟨⟨htext, hcan⟩, hrest⟩ := h
      obtain ⟨s, rfl⟩ := Option.isSome_iff_exists.mp htext
      obtain ⟨middle, hwrite⟩ := ((FileSystem.SameDirs.refl fs).canWrite_iff s.toUTF8).mp hcan
      have hmiddle := writeDocument_eq_ok_iff.mpr ⟨s, rfl, hwrite⟩
      have hafter : ∃ after, writeAll out middle rest = .ok after := by
        refine ih.mpr fun document hdocument => ?_
        obtain ⟨htext, hcan⟩ := hrest document hdocument
        exact ⟨htext, ((hsame hmiddle).canWrite_iff _).mpr hcan⟩
      obtain ⟨after, hafter⟩ := hafter
      refine ⟨after, ?_⟩
      rw [writeAll, hmiddle]
      exact hafter

/-- Output can be written exactly if the output directory can be made, and in it each document. -/
theorem exists_writeOutput_eq_iff {documents : Documents} :
    (∃ after, writeOutput out fs documents = .ok after) ↔
      ∃ ready, fs.ensureDirs out.root out.names.reverse = .ok ready ∧
        ∀ document ∈ documents, document.2.isSome ∧
          ready.CanWrite (out.join (Path.ofString document.1).route) := by
  simp only [← exists_writeAll_eq_iff]
  rw [writeOutput]
  cases hready : fs.ensureDirs out.root out.names.reverse with
  | error cause =>
    refine iff_of_false ?_ (by simp)
    rintro ⟨after, h⟩
    cases h
  | ok ready =>
    simp only [Except.ok.injEq, exists_eq_left']
    exact Iff.rfl

/-- Of documents that go to different places each one leaves its text. -/
theorem writtenAt_of_mem {documents : Documents}
    (h : documents.Pairwise fun a b => documentPlace fs out a.1 ≠ documentPlace fs out b.1)
    {document : String × Option String} (hmem : document ∈ documents) :
    writtenAt fs out documents (documentPlace fs out document.1) =
      some (.file (document.2.getD "").toUTF8 0) := by
  induction h with
  | nil => cases hmem
  | @cons first rest hfirst hrest ih =>
    obtain ⟨name, text⟩ := first
    rw [writtenAt_cons]
    rcases List.mem_cons.mp hmem with rfl | hmem
    · have hnone : writtenAt fs out rest (documentPlace fs out name) = none := by
        rw [writtenAt, Option.map_eq_none_iff, List.findRev?_eq_find?_reverse, List.find?_eq_none]
        intro later hlater
        simpa using (hfirst later (List.mem_reverse.mp hlater)).symm
      rw [hnone, if_pos rfl, Option.none_or]
    · rw [ih hmem, Option.some_or]

variable {options : Options}

/-- The documents have distinct names, which are one segment if the given name is. -/
theorem documents_names (build : Build) (hslash : '/' ∉ options.outputName.toList) :
    ((build.documents options).map Prod.fst).Nodup ∧
      ∀ document ∈ build.documents options,
        '/' ∉ document.1.toList ∧ 3 ≤ document.1.length := by
  constructor
  · have hperm := (build.documents_perm options).map Prod.fst
    rw [List.map_map] at hperm
    exact hperm.nodup_iff.mpr options.nodup_fileName_kept
  · intro document hdocument
    obtain ⟨format, -, hname⟩ :=
      (build.mem_map_fst_documents_iff options _).mp (List.mem_map_of_mem hdocument)
    obtain ⟨hlength, hsegment⟩ := Format.of_mem_documentNames hname
    exact ⟨hsegment hslash, hlength⟩

/-- A document whose name is one segment is written into the output directory. -/
theorem join_route_of_notMem (out : Route) {name : String} (hslash : '/' ∉ name.toList)
    (hlength : 3 ≤ name.length) :
    out.join (Path.ofString name).route = out.append [.text name] := by
  rw [Path.ofString_of_notMem hslash hlength]
  rfl

/-- Documents that were delivered stand in files of their own. -/
theorem Delivered.glance_of_mem_kept {build : Build} (hslash : '/' ∉ options.outputName.toList)
    (h : Delivered fs after out (build.documents options)) {document : Document}
    (hkept : document ∈ options.kept) :
    ∃ text, document.text? build options = some text ∧
      after.tree.glance? (fs.place out ++ [.text (document.fileName options.outputName)]) =
        some (.file text.toUTF8 0) := by
  obtain ⟨hnodup, hnames⟩ := documents_names build hslash
  have hmem : document.toPair build options ∈ build.documents options :=
    (build.documents_perm options).mem_iff.mpr (List.mem_map_of_mem hkept)
  have hplace {found : String × Option String} (hfound : found ∈ build.documents options) :
      documentPlace fs out found.1 = fs.place out ++ [.text found.1] :=
    documentPlace_of_notMem fs out (hnames found hfound).1 (hnames found hfound).2
  have hplaces : (build.documents options).Pairwise fun a b =>
      documentPlace fs out a.1 ≠ documentPlace fs out b.1 := by
    refine (List.pairwise_map.mp hnodup).imp_of_mem fun ha hb hne => ?_
    rw [hplace ha, hplace hb]
    simpa using hne
  obtain ⟨text, htext⟩ := Option.isSome_iff_exists.mp (h.texts _ hmem)
  have hwritten := writtenAt_of_mem hplaces hmem
  rw [hplace hmem, htext, Option.getD_some] at hwritten
  refine ⟨text, htext, (h.glance _).trans ?_⟩
  exact congrArg (Option.or · _) hwritten

/-- If the given name is one segment, the documents of a build are exactly those that are kept, under
their file names and with their texts. These are all wanted documents, unless JSON is wanted and the
name is reserved. Their paths are distinct. They are written exactly if the output directory can be
made, each of them has a text and each of them could be written there as the only one; then each of
them stands with its text in the output directory. -/
theorem documents_own_files (build : Build) (hslash : '/' ∉ options.outputName.toList) :
    (build.documents options).Perm (options.kept.map (Document.toPair build options)) ∧
    (options.kept = options.wanted ↔
      (.json ∈ options.formats → options.outputName ∉ Document.reservedNames)) ∧
    (∀ directory : Path,
      ((build.documents options).map fun document => documentPath directory document.1).Nodup) ∧
    ∀ (fs : FileSystem) (out : Route),
      ((∃ after, writeOutput out fs (build.documents options) = .ok after) ↔
        ∃ ready, fs.ensureDirs out.root out.names.reverse = .ok ready ∧
          ∀ document ∈ options.kept, (document.text? build options).isSome ∧
            ready.CanWrite (out.append [.text (document.fileName options.outputName)])) ∧
      ∀ after, writeOutput out fs (build.documents options) = .ok after →
        ∀ document ∈ options.kept, ∃ text, document.text? build options = some text ∧
          after.tree.glance? (fs.place out ++ [.text (document.fileName options.outputName)]) =
            some (.file text.toUTF8 0) := by
  obtain ⟨hnodup, hnames⟩ := documents_names build hslash
  have hperm := build.documents_perm options
  refine ⟨hperm, Options.kept_eq_wanted_iff, fun directory => ?_, fun fs out => ⟨?_, ?_⟩⟩
  · refine List.pairwise_map.mpr ((List.pairwise_map.mp hnodup).imp_of_mem fun ha hb hne heq => hne ?_)
    rw [documentPath, documentPath, Path.ofString_of_notMem (hnames _ ha).1 (hnames _ ha).2,
      Path.ofString_of_notMem (hnames _ hb).1 (hnames _ hb).2] at heq
    simpa [Path.join, Path.append] using heq
  · have hroute {document : Document} (hkept : document ∈ options.kept) :
        out.join (Path.ofString (document.fileName options.outputName)).route =
          out.append [.text (document.fileName options.outputName)] := by
      have hmem := hperm.mem_iff.mpr (List.mem_map_of_mem hkept)
      exact join_route_of_notMem out (hnames _ hmem).1 (hnames _ hmem).2
    rw [exists_writeOutput_eq_iff]
    simp only [hperm.mem_iff, List.forall_mem_map]
    refine exists_congr fun ready => and_congr_right fun _ => forall₂_congr fun document hkept => ?_
    rw [← hroute hkept]
    rfl
  · intro after hwrite document hkept
    exact (writeOutput_eq_ok hwrite).glance_of_mem_kept hslash hkept

/-- A build from one source. -/
def libraryBuild : Build :=
  .ofSources (Identity.supply 0) false
    (((library.scan "src/a.ts" [] []).toOption).getD [])

/-- Under a reserved name the comments are lost, and all other JSON documents and the HTML page are
written, each into a file of its own. -/
theorem documents_own_files_modules :
    let options : Options := { outputName := "modules", formats := [.html, .json] }
    let out : Route := { root := "", names := [.text ".dist"] }
    '/' ∉ options.outputName.toList ∧
    options.kept = [.entries, .namespaces, .modules, .files, .elements, .html] ∧
    ∃ after, writeOutput out library (libraryBuild.documents options) = .ok after ∧
      ∀ document ∈ options.kept, ∃ text, document.text? libraryBuild options = some text ∧
        after.tree.glance? (library.place out ++ [.text (document.fileName "modules")]) =
          some (.file text.toUTF8 0) := by
  intro options out
  have hslash : '/' ∉ options.outputName.toList := by decide
  have hok : (writeOutput out library (libraryBuild.documents options)).toOption.isSome := by
    decide +kernel
  cases hwrite : writeOutput out library (libraryBuild.documents options) with
  | error cause => simp [hwrite, Except.toOption] at hok
  | ok after =>
    have hfiles := ((documents_own_files libraryBuild hslash).2.2.2 library out).2 after hwrite
    exact ⟨hslash, by decide, after, rfl, hfiles⟩

/-- A run under a reserved name ends with 0, and the file that is named for the comments does not hold
them. -/
theorem run_loses_comments :
    let argv := ["src/a.ts", "--name", "processed", "--format", "json"]
    ∃ options sources out stdout stderr after text, options? library argv = some options ∧
      '/' ∉ options.outputName.toList ∧ Document.comments ∈ options.wanted ∧
      library.scan "src/a.ts" options.fragments options.extensions = .ok sources ∧
      Route.ofLoose? options.outputPath = some out ∧
      run (Identity.supply 0) library argv = .finished 0 stdout stderr after ∧
      Document.comments.text? (.ofSources (Identity.supply 0) options.strict sources) options =
        some text ∧
      after.tree.glance? (library.place out ++
        [.text (Document.comments.fileName options.outputName)]) ≠ some (.file text.toUTF8 0) := by
  intro argv
  let options : Options := { targetPath := "src/a.ts", outputName := "processed", formats := [.json] }
  have hoptions : options? library argv = some options := by decide +kernel
  have hzero : (run (Identity.supply 0) library argv).exitCode? = some 0 := by decide +kernel
  obtain ⟨stdout, stderr, after, hrun⟩ := Outcome.exists_finished hzero
  obtain ⟨hcode, -⟩ | ⟨found, target, sources, out, hfound, htarget, hsources, hout, -, -, -,
    hdelivered⟩ := run_eq_finished hrun
  · exact absurd hcode (by decide)
  obtain rfl : options = found := Option.some.inj (hoptions.symm.trans hfound)
  obtain rfl : "src/a.ts" = target := Option.some.inj htarget
  have hslash : '/' ∉ options.outputName.toList := by decide
  have hkept : Document.entries ∈ options.kept := by decide
  obtain ⟨text, htext, hglance⟩ := hdelivered.glance_of_mem_kept hslash hkept
  have hdiffer : ((library.scan "src/a.ts" options.fragments options.extensions).toOption.map
      fun sources =>
        let build := Build.ofSources (Identity.supply 0) options.strict sources
        decide (Json.chars 0 (.arr (build.atlas.entries.map Entry.toJson)) [] =
          Json.chars 0 (.arr (build.comments.map Comment.toJson)) [])) = some false := by
    decide +kernel
  rw [hsources] at hdiffer
  refine ⟨options, sources, out, stdout, stderr, after, _, hoptions, hslash, by decide, hsources, hout,
    hrun, rfl, fun hcomments => ?_⟩
  have hbytes := Option.some.inj (hglance.symm.trans hcomments)
  have hsame := String.toByteArray_inj.mp (Tree.file.inj hbytes).1
  have hwritten := (Option.some.inj htext).trans hsame
  exact of_decide_eq_false (Option.some.inj hdiffer) (String.ofList_injective hwritten)

end Command

end DocAtlas
