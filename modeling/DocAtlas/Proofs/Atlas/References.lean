import DocAtlas.Proofs.Atlas.Parents
import DocAtlas.Proofs.Comment.Values
import DocAtlas.Proofs.Element.Slugs

/-!
# Declared names can be referred to

A name that some block declares can be written behind the prefix of its kind in another block, and
the reference leads to the declarer. The name was trimmed and perhaps stripped of its braces when it
was declared, the reference is cut at its first colon and trimmed when it is read; neither changes
the name, as it has no surrounding blanks, stands on one line and ends no block.
-/

namespace DocAtlas

open DocAtlas.Text

namespace Tag

/-- A name that can stand behind a prefix at the end of a line. -/
structure Referable (name : String) : Prop where
  trim_eq : trim name.toList = name.toList
  oneLine : '\n' ∉ name.toList
  unclosed : ¬['*', '/'] <:+: name.toList

/-- A phrase can be referred to. -/
theorem Phrase.referable (phrase : Phrase) : Referable phrase.text :=
  { trim_eq := phrase.trim_toList, oneLine := phrase.oneLine, unclosed := phrase.unclosed }

/-- A trimmed part of a name that can be referred to is one again. -/
theorem Referable.of_isInfix {name : String} (h : Referable name) {part : List Char}
    (hpart : part <:+: name.toList) : Referable (String.ofList (trim part)) := by
  have hwithin : trim part <:+: name.toList := (trim_isInfix part).trans hpart
  refine ⟨?_, ?_, ?_⟩ <;> rw [String.toList_ofList]
  · exact trim_trim part
  · exact fun hmem => h.oneLine (hwithin.subset hmem)
  · exact fun hclosed => h.unclosed (hclosed.trans hwithin)

/-- Without its braces a name can still be referred to. -/
theorem Referable.stripBraces {name : String} (h : Referable name) :
    Referable (stripBraces name) := by
  have htail (s : List Char) : (if s.head? = some '\x7b' then s.tail else s) <:+: s := by
    split
    · exact (List.tail_suffix s).isInfix
    · exact List.infix_rfl
  have hdropLast (s : List Char) : (if s.getLast? = some '\x7d' then s.dropLast else s) <:+: s := by
    split
    · exact (List.dropLast_prefix s).isInfix
    · exact List.infix_rfl
  refine h.of_isInfix ((hdropLast _).trans ((htail _).trans ?_))
  exact trim_isInfix _

/-- The kinds of declaration that a reference can name. -/
def referenceKinds : List String :=
  ["namespace", "module"]

/-- The prefixes of references are short of everything that could disturb the name behind them. -/
theorem of_mem_referenceKinds : ∀ kind ∈ referenceKinds,
    kind.toList ≠ [] ∧ trim kind.toList = kind.toList ∧
      ':' ∉ kind.toList ∧ '\n' ∉ kind.toList ∧ '*' ∉ kind.toList := by
  decide

/-- Behind the prefix of its kind a name that can be referred to is a phrase, also if it is
empty. -/
theorem Referable.exists_phrase {kind name : String} (hkind : kind ∈ referenceKinds)
    (h : Referable name) : ∃ phrase : Phrase, phrase.text = kind ++ ":" ++ name := by
  obtain ⟨hne, htrim, _, hnewline, hstar⟩ := of_mem_referenceKinds kind hkind
  have hchars : (kind ++ ":" ++ name).toList = kind.toList ++ [':'] ++ name.toList := by
    simp
  have hfirst : ∀ c, (kind.toList ++ [':'] ++ name.toList).head? = some c → isBlank c = false := by
    intro c hc
    obtain ⟨⟨d, rest, hrest, hd⟩, _⟩ := exists_ends_of_trim hne htrim
    rw [hrest] at hc
    rwa [← Option.some.inj hc]
  have hlast : ∀ c, (kind.toList ++ [':'] ++ name.toList).getLast? = some c →
      isBlank c = false := by
    intro c hc
    by_cases hempty : name.toList = []
    · rw [hempty, List.append_nil, List.getLast?_concat] at hc
      rw [← Option.some.inj hc]
      decide
    · obtain ⟨_, front, d, hname, hd⟩ := exists_ends_of_trim hempty h.trim_eq
      rw [hname, ← List.append_assoc, List.getLast?_concat] at hc
      rwa [← Option.some.inj hc]
  refine ⟨⟨kind ++ ":" ++ name, ?_, ?_, ?_, ?_⟩, rfl⟩
  · intro hempty
    have hnil := congrArg String.toList hempty
    simp at hnil
  · rw [trimmed, hchars, trim_eq_self hfirst hlast, ← hchars, String.ofList_toList]
  · rw [hchars]
    simp [hnewline, h.oneLine]
  · rw [hchars]
    exact fun hclosed => h.unclosed (isInfix_of_isInfix_append (by simp [hstar]) hclosed)

end Tag

open DocAtlas.Tag

/-- A reference is read as it was written. -/
theorem MemberRef.ofString_append {kind name : String} (hkind : kind ∈ referenceKinds)
    (hname : Referable name) :
    MemberRef.ofString (kind ++ ":" ++ name) = { kind, description := name } := by
  obtain ⟨_, htrim, hcolon, _⟩ := of_mem_referenceKinds kind hkind
  have hchars : (kind ++ ":" ++ name).toList = kind.toList ++ ':' :: name.toList := by
    simp
  rw [ofString, hchars, cut?_of_notMem hcolon]
  simp only [htrim, hname.trim_eq, String.ofList_toList]

namespace Comment

/-- The tag of a reference. -/
def memberOfWord : Word :=
  ⟨"memberof", by decide, by decide⟩

/-- A source with a single block that refers to a name. -/
def referring (path created modified kind name : String) : SourceFile :=
  { path
    content := "/**\n * @memberof " ++ kind ++ ":" ++ name ++ "\n */"
    created
    modified }

/-- The comment of a block that refers to a name. -/
def referrer (id path created modified kind name : String) : Comment :=
  { id
    fileName := (Path.ofString path).name
    filePath := path
    tags :=
      [("memberof",
        [{ line := "* @memberof " ++ (kind ++ ":" ++ name)
           name := "memberof"
           description := kind ++ ":" ++ name }])]
    created
    modified
    text := "" }

/-- A block that stands alone in the last source gives the last comment. -/
theorem extract_concat (supply : ℕ → String) (sources : List SourceFile)
    (path created modified : String) (items : List Item) :
    extract supply .doc (sources ++ [{ path, content := renderBlock items, created, modified }]) =
      extract supply .doc sources ++
        [{ id := supply (extract supply .doc sources).length
           fileName := (Path.ofString path).name
           filePath := path
           tags := Table.grouped (items.filterMap Item.occurrence?)
           created
           modified
           text := "\n".intercalate (items.filterMap Item.text?) }] := by
  have hblocks : Style.doc.blocks (renderBlock items).toList = [(renderBlock items).toList] := by
    simpa [Style.blocks] using blocks_renderBlock_append items []
  rw [extract, blocksOf, List.flatMap_append, List.flatMap_singleton, hblocks, List.map_singleton,
    List.mapIdx_append, extract, blocksOf, List.length_mapIdx]
  simp only [List.mapIdx_singleton, Nat.zero_add, ofBlock, ofChars_renderBlock]

/-- A source that refers to a name gives one more comment. -/
theorem extract_referring (supply : ℕ → String) (sources : List SourceFile)
    (path created modified : String) {kind name : String} (hkind : kind ∈ referenceKinds)
    (hname : Referable name) :
    extract supply .doc (sources ++ [referring path created modified kind name]) =
      extract supply .doc sources ++
        [referrer (supply (extract supply .doc sources).length) path created modified kind
          name] := by
  obtain ⟨phrase, hphrase⟩ := hname.exists_phrase hkind
  have hcontent : (referring path created modified kind name).content =
      renderBlock [.tag memberOfWord phrase] := by
    rw [← String.toList_inj, toList_renderBlock]
    simp [referring, inside, Item.toList_line_tag, hphrase, memberOfWord]
  have hsource : referring path created modified kind name =
      { path, content := renderBlock [.tag memberOfWord phrase], created, modified } := by
    rw [← hcontent]
    rfl
  rw [hsource, extract_concat, referrer, ← hphrase]
  rfl

/-- A name that some source declares can be referred to. -/
theorem referable_of_declares {supply : ℕ → String} {sources : List SourceFile}
    {comment : Comment} (hcomment : comment ∈ extract supply .doc sources) {ref : MemberRef}
    (h : comment.declares ref = true) : Referable ref.description := by
  simp only [declares, Bool.or_eq_true, Bool.and_eq_true, decide_eq_true_eq] at h
  obtain ⟨_, hnamespace⟩ | ⟨_, hmodule⟩ := h
  · obtain ⟨value, hvalue, heq⟩ := List.mem_map.mp hnamespace
    obtain ⟨phrase, rfl⟩ := exists_phrase_of_mem_values hcomment hvalue
    rw [← heq]
    exact phrase.referable.stripBraces
  · obtain ⟨phrase, hphrase⟩ := exists_phrase_of_mem_values hcomment hmodule
    rw [← hphrase]
    exact phrase.referable

/-- No comment has the name of a position behind the last one. -/
theorem id_ne_of_mem_extract {supply : ℕ → String} (hsupply : Function.Injective supply)
    {sources : List SourceFile} {comment : Comment} (h : comment ∈ extract supply .doc sources) :
    comment.id ≠ supply (extract supply .doc sources).length := by
  obtain ⟨index, hindex, rfl⟩ := List.mem_mapIdx.mp h
  intro heq
  have hlast : index = (extract supply .doc sources).length := hsupply heq
  rw [extract, List.length_mapIdx] at hlast
  exact absurd hlast hindex.ne

/-- A comment that refers to a name says nothing else. -/
theorem ofComment_referrer (id path created modified : String) {kind name : String}
    (hkind : kind ∈ referenceKinds) (hname : Referable name) :
    Entry.ofComment (referrer id path created modified kind name) =
      { id
        isRoot := false
        origin := { fileName := (Path.ofString path).name, filePath := path, created, modified }
        memberOf := [{ kind, description := name }] } := by
  rw [← MemberRef.ofString_append hkind hname]
  rfl

/-- The first edge of a comment leads to the first declarer of what it refers to first, if that is
another comment. -/
theorem head?_ownerEdges {comments : List Comment} {comment declarer : Comment} {ref : MemberRef}
    {others : List MemberRef} (hrefs : (Entry.ofComment comment).memberOf = ref :: others)
    (hfound : comments.find? (·.declares ref) = some declarer) (hid : declarer.id ≠ comment.id) :
    (comment.ownerEdges comments).head? =
      some
        { id := declarer.id
          kind := (Entry.ofComment comment).kind
          association := ref.kind
          description := some ref.description } := by
  have hfilter : (some declarer).filter (fun found => decide (found.id ≠ comment.id)) =
      some declarer := by
    rw [Option.filter_some, if_pos (decide_eq_true hid)]
  have hedge : comment.referenceEdge? comments ref =
      some
        { id := declarer.id
          kind := (Entry.ofComment comment).kind
          association := ref.kind
          description := some ref.description } := by
    rw [referenceEdge?, hfound, hfilter]
    rfl
  rw [ownerEdges, hrefs, List.filterMap_cons_some hedge]
  rfl

end Comment

namespace Registries

/-- The registries behind the atlas of sources. -/
def ofSources (supply : ℕ → String) (sources : List SourceFile) : Registries :=
  (Atlas.ofEntries ((Comment.extract supply .doc sources).map Entry.ofComment)).2

/-- Entries without declarations change no registry. -/
theorem ofEntries_concat {entry : Entry} (hnamespaces : entry.declaredNamespaces = [])
    (hmodules : entry.declaredModules = []) (hfiles : entry.declaredFiles = [])
    (entries : List Entry) : ofEntries (entries ++ [entry]) = ofEntries entries := by
  rw [ofEntries, ofEntries, List.flatMap_append, List.flatMap_append, List.flatMap_append]
  simp only [List.flatMap_singleton, hnamespaces, hmodules, hfiles, List.append_nil]

/-- A source that refers to a name changes no registry. -/
theorem ofSources_referring (supply : ℕ → String) (sources : List SourceFile)
    (path created modified : String) {kind name : String} (hkind : kind ∈ referenceKinds)
    (hname : Referable name) :
    ofSources supply (sources ++ [Comment.referring path created modified kind name]) =
      ofSources supply sources := by
  have hextract := Comment.extract_referring supply sources path created modified hkind hname
  change ofEntries ((Comment.extract supply .doc
    (sources ++ [Comment.referring path created modified kind name])).map Entry.ofComment) = _
  rw [hextract, List.map_append, List.map_singleton]
  refine ofEntries_concat ?_ ?_ ?_ _ <;>
  · rw [Comment.ofComment_referrer _ path created modified hkind hname]
    rfl

/-- What the registries of sources hold was declared by a comment, and can be referred to. -/
theorem exists_declarer {supply : ℕ → String} {sources : List SourceFile} {kind name : String}
    {declaration : Declaration}
    (hdeclared :
      kind = "namespace" ∧ (ofSources supply sources).namespaces.get? name = some declaration ∨
        kind = "module" ∧ (ofSources supply sources).modules.get? name = some declaration) :
    kind ∈ referenceKinds ∧ Referable name ∧ ∃ declarer,
      (Comment.extract supply .doc sources).find? (·.declares { kind, description := name }) =
        some declarer ∧ declaration.id = declarer.id := by
  have hkind : kind ∈ referenceKinds := by
    obtain ⟨rfl, _⟩ | ⟨rfl, _⟩ := hdeclared <;> decide
  have hresolve : (ofEntries ((Comment.extract supply .doc sources).map
      Entry.ofComment)).resolve? { kind, description := name } = some declaration := by
    obtain ⟨rfl, hget⟩ | ⟨rfl, hget⟩ := hdeclared <;> exact hget
  rw [resolve?_ofComments] at hresolve
  obtain ⟨declarer, hfound, rfl⟩ := Option.map_eq_some_iff.mp hresolve
  have hdeclares : declarer.declares { kind, description := name } = true :=
    List.find?_some (p := fun comment : Comment => comment.declares _) hfound
  refine ⟨hkind, ?_, declarer, hfound, rfl⟩
  exact Comment.referable_of_declares (List.mem_of_find?_eq_some hfound) hdeclares

end Registries

namespace Atlas

/-- The last comment gets the last entry. -/
theorem link_concat (comments : List Comment) (last : Comment) :
    ∃ front entry, (link (comments ++ [last])).entries = front ++ [entry] ∧
      front.map Entry.id = comments.map Comment.id ∧
      entry.parents = (last.ownerEdges (comments ++ [last])).eraseDups := by
  have hids := map_id_link (comments ++ [last])
  obtain hnil | ⟨front, entry, hentries⟩ :=
    List.eq_nil_or_concat' (link (comments ++ [last])).entries
  · rw [hnil] at hids
    simp at hids
  rw [hentries, List.map_append, List.map_append, List.map_singleton, List.map_singleton] at hids
  have hfront : front.map Entry.id = comments.map Comment.id :=
    (List.append_inj' hids rfl).1
  have hlength : front.length = comments.length := by
    simpa using congrArg List.length hfront
  refine ⟨front, entry, hentries, hfront, ?_⟩
  have hentry : (link (comments ++ [last])).entries[comments.length]? = some entry := by
    rw [hentries, ← hlength, List.getElem?_concat_length]
  rw [link, ofEntries, getElem?_connect, List.map_append, List.map_singleton,
    ← List.length_map Entry.ofComment, List.getElem?_concat_length] at hentry
  rw [← Option.some.inj hentry, ← Registries.parentsOf_ofComments, List.map_append]
  rfl

/-- Every declared name can be referred to. If the registries of sources hold a namespace or a
module, one more source whose block refers to it gives one more entry, at the end. Its first parent
is the declarer that the registries hold, and the registries stay as they are. -/
theorem link_referring {supply : ℕ → String} (hsupply : Function.Injective supply)
    (sources : List SourceFile) (path created modified : String) {kind name : String}
    {declaration : Declaration}
    (hdeclared :
      kind = "namespace" ∧
          (Registries.ofSources supply sources).namespaces.get? name = some declaration ∨
        kind = "module" ∧
          (Registries.ofSources supply sources).modules.get? name = some declaration) :
    let extended := sources ++ [Comment.referring path created modified kind name]
    let atlas := link (Comment.extract supply .doc extended)
    Registries.ofSources supply extended = Registries.ofSources supply sources ∧
      ∃ front last, atlas.entries = front ++ [last] ∧
        front.map Entry.id = (Comment.extract supply .doc sources).map Comment.id ∧
        last.parents.head? =
          some
            { id := declaration.id
              kind := none
              association := kind
              description := some name } := by
  intro extended atlas
  obtain ⟨hkind, hname, declarer, hfound, hid⟩ := Registries.exists_declarer hdeclared
  refine ⟨Registries.ofSources_referring supply sources path created modified hkind hname, ?_⟩
  let comments := Comment.extract supply .doc sources
  let last := Comment.referrer (supply comments.length) path created modified kind name
  have hextract : Comment.extract supply .doc extended = comments ++ [last] :=
    Comment.extract_referring supply sources path created modified hkind hname
  have hlast :=
    Comment.ofComment_referrer (supply comments.length) path created modified hkind hname
  have hrefs : (Entry.ofComment last).memberOf = [{ kind, description := name }] := by
    rw [hlast]
  -- The search stops at the declarer, before it comes to the last comment.
  have hsearch : (comments ++ [last]).find? (·.declares { kind, description := name }) =
      some declarer := by
    rw [List.find?_append, hfound, Option.some_or]
  have hother : declarer.id ≠ last.id :=
    Comment.id_ne_of_mem_extract hsupply (List.mem_of_find?_eq_some hfound)
  obtain ⟨front, entry, hentries, hids, hparents⟩ := link_concat comments last
  refine ⟨front, entry, ?_, hids, ?_⟩
  · rw [← hentries, ← hextract]
  · rw [hparents, head?_eraseDups, Comment.head?_ownerEdges hrefs hsearch hother, hlast, hid]
    rfl

/-- A block that declares the empty namespace and a module with a difficult name. -/
def lexicon : List Item :=
  [.tag ⟨"namespace", by decide, by decide⟩
      ⟨"\x7b \x7d", by decide, by decide, by decide, by decide⟩,
    .tag ⟨"module", by decide, by decide⟩
      ⟨"* a: @b \x7bc\x7d *", by decide, by decide, by decide, by decide⟩]

/-- The source of the lexicon. -/
def lexiconSource : SourceFile :=
  { path := "names.js", content := Comment.renderBlock lexicon, created := "", modified := "" }

/-- Both names of the lexicon can be referred to. -/
theorem link_referring_lexicon :
    (∃ front last,
      (link (Comment.extract Nat.repr .doc
        [lexiconSource, Comment.referring "use.js" "" "" "namespace" ""])).entries =
          front ++ [last] ∧
      last.parents.head? =
        some { id := "0", kind := none, association := "namespace", description := some "" }) ∧
    ∃ front last,
      (link (Comment.extract Nat.repr .doc
        [lexiconSource, Comment.referring "use.js" "" "" "module" "* a: @b \x7bc\x7d *"])).entries =
          front ++ [last] ∧
      last.parents.head? =
        some
          { id := "0"
            kind := none
            association := "module"
            description := some "* a: @b \x7bc\x7d *" } := by
  have hsupply : Function.Injective Nat.repr := fun m n h =>
    toList_repr_injective (congrArg String.toList h)
  have hregistries : Registries.ofSources Nat.repr [lexiconSource] = _ :=
    congrArg (fun comments : List Comment => Registries.ofEntries (comments.map Entry.ofComment))
      (Comment.extract_concat Nat.repr [] "names.js" "" "" lexicon)
  have hnamespace : (Registries.ofSources Nat.repr [lexiconSource]).namespaces.get? "" =
      some { id := "0", description := "" } := by
    rw [hregistries]
    decide
  have hmodule : (Registries.ofSources Nat.repr [lexiconSource]).modules.get?
      "* a: @b \x7bc\x7d *" = some { id := "0", description := "* a: @b \x7bc\x7d *" } := by
    rw [hregistries]
    decide
  obtain ⟨_, front, last, hentries, _, hparent⟩ :=
    link_referring hsupply [lexiconSource] "use.js" "" "" (.inl ⟨rfl, hnamespace⟩)
  obtain ⟨_, front', last', hentries', _, hparent'⟩ :=
    link_referring hsupply [lexiconSource] "use.js" "" "" (.inr ⟨rfl, hmodule⟩)
  exact ⟨⟨front, last, hentries, hparent⟩, front', last', hentries', hparent'⟩

end Atlas

end DocAtlas
