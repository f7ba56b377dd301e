import DocAtlas.Proofs.Element.Outline
import DocAtlas.Proofs.Element.Slugs

/-!
# Identifiers of nodes

The identifier of a node is put together from the slug of its heading, fixed words and numbers. The
kind and the identifier of a node can be read back into the slug and the place of the node in the
tree of its heading: the fixed words stand before the slug, an empty segment separates two slugs,
and behind the slug of a panel nothing but numbers follows the word that ends the slug. So no two
nodes of a kind share an identifier, whatever the headings are called and however deep their panels
are nested.
-/

namespace DocAtlas

open DocAtlas.Element

/-- A node of the frame of a heading. -/
inductive FramePart where
  | root
  | link
  | container
  | strip
  | wrapper

/-- The kind of a node of the frame. -/
def FramePart.kind : FramePart → String
  | root => "root-item"
  | link => "nav-link"
  | container => "container"
  | strip => "tab-strip"
  | wrapper => "content-wrapper"

/-- What stands before the slug in the identifier of a node of the frame. -/
def FramePart.lead : FramePart → String
  | root => "root"
  | link => "nav"
  | container => "container"
  | strip => "tab-strip"
  | wrapper => "content"

/-- The place of a node in the tree of a heading: a node of the frame, the link to the heading with
the given slug, or the tab or the panel with the given numbers, the overview if there are none. -/
inductive Place where
  | frame (part : FramePart)
  | sublink (target : String)
  | tab (numbers : List ℕ)
  | panel (numbers : List ℕ)

/-- The identifier of a tab or panel: an overview, or one number per level of nesting. -/
def viewId (slug : String) : List ℕ → String
  | [] => slug ++ "-overview"
  | first :: rest =>
    rest.foldl (fun id number => id ++ "-" ++ number.repr) (slug ++ "-tab-" ++ first.repr)

namespace Place

/-- The kind of the node at a place. -/
def kind : Place → String
  | frame part => part.kind
  | sublink _ => "nav-sublink"
  | tab _ => "tab"
  | panel _ => "content"

/-- The identifier of the node at a place in the tree of the heading with the given slug. -/
def domId (slug : String) : Place → String
  | frame part => part.lead ++ "-" ++ slug
  | sublink target => "nav-" ++ slug ++ "--" ++ target
  | tab numbers => viewId slug numbers
  | panel numbers => viewId slug numbers

/-- The kind and the identifier of the node at a place. -/
def key (slug : String) (place : Place) : String × String :=
  (place.kind, place.domId slug)

end Place

/-- The segments of a tab or panel behind those of the slug. -/
def viewSegments : List ℕ → List (List Char)
  | [] => ["overview".toList]
  | first :: rest => "tab".toList :: (first :: rest).map fun number => number.repr.toList

/-- A further number is put behind the identifier of a tab or panel. -/
theorem viewId_append {numbers : List ℕ} (h : numbers ≠ []) (slug : String) (number : ℕ) :
    viewId slug (numbers ++ [number]) = viewId slug numbers ++ "-" ++ number.repr := by
  cases numbers with
  | nil => exact absurd rfl h
  | cons first rest =>
    rw [List.cons_append, viewId, viewId, List.foldl_append, List.foldl_cons, List.foldl_nil]

/-- The identifier of a tab or panel has the segments of the slug before its own. -/
theorem segments_viewId (slug : String) (numbers : List ℕ) :
    segments (viewId slug numbers) = segments slug ++ viewSegments numbers := by
  cases numbers with
  | nil =>
    have hdash : "-overview" = "-" ++ "overview" := rfl
    rw [viewId, hdash, ← String.append_assoc, segments_append_dash]
    rfl
  | cons first rest =>
    have hdash : "-tab-" = "-" ++ "tab" ++ "-" := rfl
    have hfold : ∀ start, segments
        (rest.foldl (fun id number => id ++ "-" ++ number.repr) start) =
          segments start ++ rest.map fun number => number.repr.toList := by
      induction rest with
      | nil => simp
      | cons number rest ih =>
        intro start
        rw [List.foldl_cons, ih, segments_append_dash, segments_repr, List.map_cons,
          List.append_assoc, List.singleton_append]
    rw [viewId, hfold, hdash, ← String.append_assoc, ← String.append_assoc, segments_append_dash,
      segments_append_dash, segments_repr, List.append_assoc, List.append_assoc]
    rfl

/-- The identifier of a link to a heading has an empty segment between the two slugs. -/
theorem segments_sublink (slug target : String) :
    segments ("nav-" ++ slug ++ "--" ++ target) =
      segments "nav" ++ segments slug ++ [] :: segments target := by
  have hlead : "nav-" = "nav" ++ "-" := rfl
  have hgap : "--" = "-" ++ "" ++ "-" := rfl
  rw [hlead, hgap, ← String.append_assoc, ← String.append_assoc, segments_append_dash,
    segments_append_dash, segments_append_dash, List.append_assoc]
  rfl

/-- What stands before the first place of a value, and what follows it, can be told from a list. -/
theorem append_cons_inj_of_notMem_left {α : Type} {a : α} {x y : List α} (hx : a ∉ x) (hy : a ∉ y)
    {u v : List α} (h : x ++ a :: u = y ++ a :: v) : x = y ∧ u = v := by
  induction x generalizing y with
  | nil =>
    cases y with
    | nil => exact ⟨rfl, (List.cons.inj h).2⟩
    | cons b y => exact absurd ((List.cons.inj h).1 ▸ List.mem_cons_self) hy
  | cons b x ih =>
    cases y with
    | nil => exact absurd ((List.cons.inj h).1 ▸ List.mem_cons_self) hx
    | cons c y =>
      obtain ⟨rfl, hrest⟩ := List.cons.inj h
      obtain ⟨rfl, rfl⟩ := ih (fun hmem => hx (List.mem_cons_of_mem _ hmem))
        (fun hmem => hy (List.mem_cons_of_mem _ hmem)) hrest
      exact ⟨rfl, rfl⟩

/-- What stands before the last place of a value, and what follows it, can be told from a list. -/
theorem append_cons_inj_of_notMem_right {α : Type} {a : α} {u v : List α} (hu : a ∉ u)
    (hv : a ∉ v) {x y : List α} (h : x ++ a :: u = y ++ a :: v) : x = y ∧ u = v := by
  have hreverse := congrArg List.reverse h
  simp only [List.reverse_append, List.reverse_cons, List.append_assoc,
    List.singleton_append] at hreverse
  obtain ⟨htail, hinit⟩ := append_cons_inj_of_notMem_left (by simpa using hu) (by simpa using hv)
    hreverse
  exact ⟨List.reverse_injective hinit, List.reverse_injective htail⟩

/-- A word with a letter is no number. -/
theorem notMem_map_repr {word : List Char} {c : Char} (hc : c ∈ word) (hletter : c.isDigit = false)
    (numbers : List ℕ) : word ∉ numbers.map fun number => number.repr.toList := by
  intro hmem
  obtain ⟨number, _, rfl⟩ := List.mem_map.mp hmem
  rw [isDigit_of_mem_repr hc] at hletter
  exact Bool.noConfusion hletter

/-- The segments of a slug and the numbers behind it can be told from the segments of a tab or
panel. -/
theorem append_viewSegments_inj {x y : List (List Char)} {first second : List ℕ}
    (h : x ++ viewSegments first = y ++ viewSegments second) : x = y ∧ first = second := by
  have hne (x y : List (List Char)) (number : ℕ) (numbers : List ℕ) :
      x ++ viewSegments [] ≠ y ++ viewSegments (number :: numbers) := by
    intro heq
    have hlast := congrArg List.getLast? heq
    rw [viewSegments, viewSegments, List.getLast?_append_of_ne_nil y (List.cons_ne_nil _ _),
      List.map_cons, List.getLast?_cons_cons, List.getLast?_concat] at hlast
    exact notMem_map_repr (c := 'o') (by decide) (by decide) (number :: numbers)
      (List.mem_of_getLast? hlast.symm)
  match first, second with
  | [], [] => exact ⟨List.append_cancel_right h, rfl⟩
  | [], number :: numbers => exact absurd h (hne x y number numbers)
  | number :: numbers, [] => exact absurd h.symm (hne y x number numbers)
  | m :: ms, n :: ns =>
    have htab : ∀ numbers : List ℕ, "tab".toList ∉ numbers.map fun number => number.repr.toList :=
      notMem_map_repr (c := 't') (by decide) (by decide)
    obtain ⟨hslug, hnumbers⟩ := append_cons_inj_of_notMem_right (htab (m :: ms)) (htab (n :: ns)) h
    exact ⟨hslug, List.map_injective_iff.mpr toList_repr_injective hnumbers⟩

/-- The identifier of a tab or panel tells its numbers. -/
theorem viewId_injective (slug : String) : Function.Injective (viewId slug) := by
  intro first second h
  have hsegments := congrArg segments h
  rw [segments_viewId, segments_viewId] at hsegments
  exact (append_viewSegments_inj hsegments).2

namespace Place

/-- The kind and the identifier of a node tell its slug and its place. -/
theorem key_inj {first second : String} (hfirst : [] ∉ segments first)
    (hsecond : [] ∉ segments second) {p q : Place} (h : p.key first = q.key second) :
    first = second ∧ p = q := by
  obtain ⟨hkind, hid⟩ := Prod.mk.inj h
  have hsegments := congrArg segments hid
  cases p with
  | frame part =>
    cases q with
    | frame other =>
      obtain rfl : part = other := by
        cases part <;> cases other <;> simp_all [kind, FramePart.kind]
      rw [domId, domId, segments_append_dash, segments_append_dash] at hsegments
      exact ⟨segments_injective (List.append_cancel_left hsegments), rfl⟩
    | sublink _ => cases part <;> simp [kind, FramePart.kind] at hkind
    | tab _ => cases part <;> simp [kind, FramePart.kind] at hkind
    | panel _ => cases part <;> simp [kind, FramePart.kind] at hkind
  | sublink target =>
    cases q with
    | sublink other =>
      rw [domId, domId, segments_sublink, segments_sublink, List.append_assoc,
        List.append_assoc] at hsegments
      obtain ⟨hslug, htarget⟩ :=
        append_cons_inj_of_notMem_left hfirst hsecond (List.append_cancel_left hsegments)
      obtain rfl := segments_injective htarget
      exact ⟨segments_injective hslug, rfl⟩
    | frame part => cases part <;> simp [kind, FramePart.kind] at hkind
    | tab _ => simp [kind] at hkind
    | panel _ => simp [kind] at hkind
  | tab numbers =>
    cases q with
    | tab others =>
      rw [domId, domId, segments_viewId, segments_viewId] at hsegments
      obtain ⟨hslug, rfl⟩ := append_viewSegments_inj hsegments
      exact ⟨segments_injective hslug, rfl⟩
    | frame part => cases part <;> simp [kind, FramePart.kind] at hkind
    | sublink _ => simp [kind] at hkind
    | panel _ => simp [kind] at hkind
  | panel numbers =>
    cases q with
    | panel others =>
      rw [domId, domId, segments_viewId, segments_viewId] at hsegments
      obtain ⟨hslug, rfl⟩ := append_viewSegments_inj hsegments
      exact ⟨segments_injective hslug, rfl⟩
    | frame part => cases part <;> simp [kind, FramePart.kind] at hkind
    | sublink _ => simp [kind] at hkind
    | tab _ => simp [kind] at hkind

end Place

/-- The kind and the identifier of a node, nothing if it has no identifier. -/
def Element.Sketch.key? (sketch : Sketch) : Option (String × String) :=
  (sketch.attribute? Attributes.domId).map fun id => (sketch.kind, id)

/-- If below a panel everything that belongs to a numbered value has the numbers of the panel and
that number in front, then nothing below the panel repeats the panel or anything else below it. -/
theorem nodup_panel_cons {slug : String} (hslug : [] ∉ segments slug) {α : Type} {values : List α}
    {p : α × ℕ → Bool} {keys : α × ℕ → List (String × String)} {numbers : List ℕ}
    (hkeys : ∀ pair ∈ values.zipIdx, p pair = true → (keys pair).Nodup ∧
      ∀ key ∈ keys pair, ∃ below, numbers ++ [pair.2 + 1] <+: below ∧
        key = (Place.panel below).key slug) :
    ((Place.panel numbers).key slug :: (values.zipIdx.filter p).flatMap keys).Nodup ∧
      ∀ key ∈ (Place.panel numbers).key slug :: (values.zipIdx.filter p).flatMap keys,
        ∃ below, numbers <+: below ∧ key = (Place.panel below).key slug := by
  have hbelow : ∀ key ∈ (values.zipIdx.filter p).flatMap keys,
      ∃ number below, numbers ++ [number] <+: below ∧ key = (Place.panel below).key slug := by
    intro key hkey
    obtain ⟨pair, hpair, hkey⟩ := List.mem_flatMap.mp hkey
    obtain ⟨hpair, hp⟩ := List.mem_filter.mp hpair
    exact ⟨pair.2 + 1, (hkeys pair hpair hp).2 key hkey⟩
  have hpositions : values.zipIdx.Pairwise fun first second => first.2 ≠ second.2 := by
    have hnodup : (values.zipIdx.map Prod.snd).Nodup := by
      rw [List.zipIdx_map_snd]
      exact List.nodup_range'
    rwa [List.Nodup, List.pairwise_map] at hnodup
  rw [List.nodup_cons, List.forall_mem_cons, List.nodup_flatMap]
  refine ⟨⟨?_, ?_, ?_⟩, ⟨numbers, List.prefix_rfl, rfl⟩, ?_⟩
  · intro hmem
    obtain ⟨number, below, hbegin, heq⟩ := hbelow _ hmem
    obtain rfl := Place.panel.inj (Place.key_inj hslug hslug heq).2
    have hlength := hbegin.length_le
    rw [List.length_append, List.length_singleton] at hlength
    omega
  · intro pair hpair
    obtain ⟨hpair, hp⟩ := List.mem_filter.mp hpair
    exact (hkeys pair hpair hp).1
  · refine (hpositions.filter p).imp_of_mem ?_
    intro first second hfirst hsecond hne key hkey hkey'
    obtain ⟨hfirst, hp⟩ := List.mem_filter.mp hfirst
    obtain ⟨hsecond, hp'⟩ := List.mem_filter.mp hsecond
    obtain ⟨below, hbegin, rfl⟩ := (hkeys first hfirst hp).2 key hkey
    obtain ⟨below', hbegin', heq⟩ := (hkeys second hsecond hp').2 _ hkey'
    obtain rfl := Place.panel.inj (Place.key_inj hslug hslug heq).2
    have hnumber : numbers ++ [first.2 + 1] = numbers ++ [second.2 + 1] :=
      (List.prefix_of_prefix_length_le hbegin hbegin' (by simp)).eq_of_length (by simp)
    exact hne (by simpa using hnumber)
  · intro key hkey
    obtain ⟨number, below, hbegin, heq⟩ := hbelow key hkey
    exact ⟨below, (List.prefix_append _ _).trans hbegin, heq⟩

namespace Site

variable {site : Site}

/-- The kinds and identifiers of the nodes in a tree that grows from a sketch. -/
def keysOf (site : Site) (sketch : Sketch) : List (String × String) :=
  (site.outline sketch).filterMap Sketch.key?

/-- The identifiers of a sketch: its own if it has one, then those of its children. -/
theorem keysOf_eq {sketch : Sketch} {sketches : List Sketch}
    (h : site.expand? (sketch.attribute? Attributes.domId) sketch.spec = some sketches) :
    site.keysOf sketch = sketch.key?.toList ++ sketches.flatMap site.keysOf := by
  have hbelow : sketches.flatMap site.keysOf =
      (sketches.flatMap site.outline).filterMap Sketch.key? := by
    rw [List.filterMap_flatMap]
    rfl
  rw [hbelow, keysOf, outline_eq h, List.filterMap_cons]
  cases sketch.key? <;> rfl

/-- Fields have no identifiers. -/
theorem flatMap_keysOf_fields (group : Option String) (fields : List Field) :
    (fields.map (fieldSketch group)).flatMap site.keysOf = [] := by
  rw [List.flatMap_eq_nil_iff]
  intro field hfield
  obtain ⟨_, _, rfl⟩ := List.mem_map.mp hfield
  rw [keysOf, outline_leaf rfl]
  rfl

/-- The panels of an entry's members have the numbers of the entry's panel and one more. -/
theorem key?_memberSketch {slug : String} {numbers : List ℕ} (hnumbers : numbers ≠ []) (spec : Spec)
    (index : ℕ) (member : Entry) :
    (memberSketch (some (viewId slug numbers)) spec index member).key? =
      some ((Place.panel (numbers ++ [index + 1])).key slug) := by
  simp only [Place.key, Place.kind, Place.domId, viewId_append hnumbers]
  rfl

/-- The identifiers in the tree of a panel begin with the numbers of the panel, and none of them
occurs twice. -/
theorem nodup_keysOf_panel (hdistinct : (site.atlas.entries.map Entry.id).Nodup) {slug : String}
    (hslug : [] ∉ segments slug) {entry : Entry} (hentry : entry ∈ site.atlas.entries)
    {sketch : Sketch} {numbers : List ℕ} (hnumbers : numbers ≠ [])
    (hkey : sketch.key? = some ((Place.panel numbers).key slug))
    {group : Option String} {path : List String} (hspec : sketch.spec =
      { expand := .fields, sourceId := some entry.id, group, path }) :
    (site.keysOf sketch).Nodup ∧
      ∀ key ∈ site.keysOf sketch, ∃ below, numbers <+: below ∧
        key = (Place.panel below).key slug := by
  induction hweight : site.atlas.weight sketch.spec using Nat.strongRecOn
    generalizing entry sketch numbers group path with
  | _ weight ih =>
    have hdomId : sketch.attribute? Attributes.domId = some (viewId slug numbers) := by
      obtain ⟨id, hid, heq⟩ := Option.map_eq_some_iff.mp hkey
      rw [hid, (Prod.mk.inj heq).2]
      rfl
    have hexpand : site.expand? (sketch.attribute? Attributes.domId) sketch.spec =
        some ((site.atlas.fieldsOf entry).map (fieldSketch group) ++
          memberPanels site.atlas (some (viewId slug numbers)) sketch.spec entry) := by
      simp only [hdomId, hspec, expand?, Option.bind_some,
        Atlas.latest?_eq_some_of_mem hdistinct hentry, Option.map_some]
    have hkeys : site.keysOf sketch = (Place.panel numbers).key slug ::
        (memberPanels site.atlas (some (viewId slug numbers)) sketch.spec entry).flatMap
          site.keysOf := by
      rw [keysOf_eq hexpand, hkey, List.flatMap_append, flatMap_keysOf_fields]
      rfl
    by_cases hoverview : sketch.spec.path.head? = some entry.id
    · rw [hkeys, memberPanels, if_pos hoverview]
      refine ⟨List.nodup_singleton _, fun key hmem => ⟨numbers, List.prefix_rfl, ?_⟩⟩
      exact List.mem_singleton.mp hmem
    · -- Every member's panel adds its own number, and the induction keeps it in front.
      have hchild : ∀ pair ∈ (site.atlas.panelMembers entry).zipIdx,
          decide (pair.1.id ∉ sketch.spec.path) = true →
          (site.keysOf
              (memberSketch (some (viewId slug numbers)) sketch.spec pair.2 pair.1)).Nodup ∧
          ∀ key ∈ site.keysOf
              (memberSketch (some (viewId slug numbers)) sketch.spec pair.2 pair.1),
            ∃ below, numbers ++ [pair.2 + 1] <+: below ∧ key = (Place.panel below).key slug := by
        intro pair hpair hnew
        have hsketch : memberSketch (some (viewId slug numbers)) sketch.spec pair.2 pair.1 ∈
            memberPanels site.atlas (some (viewId slug numbers)) sketch.spec entry := by
          rw [memberPanels, if_neg hoverview]
          exact List.mem_map.mpr ⟨pair, List.mem_filter.mpr ⟨hpair, hnew⟩, rfl⟩
        refine ih _ ?_ (Atlas.mem_of_mem_panelMembers (List.fst_mem_of_mem_zipIdx hpair))
          (by simp) (key?_memberSketch hnumbers sketch.spec pair.2 pair.1) rfl rfl
        rw [← hweight]
        exact weight_lt hexpand (List.mem_append_right _ hsketch)
      rw [hkeys, memberPanels, if_neg hoverview, List.flatMap_map]
      exact nodup_panel_cons hslug hchild

/-- The numbers of the tabs of a heading with the given number of members. -/
def tabNumbers (count : ℕ) : List (List ℕ) :=
  [] :: (List.range count).map fun index => [index + 1]

/-- No two tabs of a heading have the same numbers. -/
theorem nodup_tabNumbers (count : ℕ) : (tabNumbers count).Nodup := by
  refine List.nodup_cons.mpr ⟨by simp, List.nodup_range.map fun i j heq => ?_⟩
  simpa using heq

/-- The places above the panels of a heading with links to the given slugs and the given number of
members. -/
def framePlaces (targets : List String) (count : ℕ) : List Place :=
  Place.frame .root :: (Place.frame .link :: targets.map Place.sublink) ++
    Place.frame .container :: (Place.frame .strip :: (tabNumbers count).map Place.tab) ++
      [Place.frame .wrapper]

/-- No place above the panels occurs twice if no slug does. -/
theorem nodup_framePlaces {targets : List String} (h : targets.Nodup) (count : ℕ) :
    (framePlaces targets count).Nodup := by
  have hlinks : (targets.map Place.sublink).Nodup := h.map fun _ _ => Place.sublink.inj
  have htabs : ((tabNumbers count).map Place.tab).Nodup :=
    (nodup_tabNumbers count).map fun _ _ => Place.tab.inj
  have hupper : (Place.frame .root :: (Place.frame .link :: targets.map Place.sublink)).Nodup := by
    simp [hlinks]
  have hlower : (Place.frame .container ::
      (Place.frame .strip :: (tabNumbers count).map Place.tab)).Nodup := by
    simp [htabs]
  refine (hupper.append hlower ?_).append (List.nodup_singleton _) ?_
  · intro place hplace hplace'
    cases place with
    | frame part => cases part <;> simp at hplace hplace'
    | sublink target => simp at hplace'
    | tab numbers => simp at hplace
    | panel numbers => simp at hplace
  · intro place hplace hplace'
    obtain rfl := List.mem_singleton.mp hplace'
    simp at hplace

/-- The tabs of a heading have the identifiers of their numbers. -/
theorem map_domId_headingTabs (heading : Entry) (slug : String) :
    (site.headingTabs heading slug).map Tab.domId =
      (tabNumbers (heading.members site.atlas.get?).length).map (viewId slug) := by
  rw [headingTabs, tabNumbers, List.map_cons, List.map_cons, List.map_map]
  refine congrArg (List.cons _) (List.ext_getElem (by simp) fun index _ _ => ?_)
  rw [List.getElem_map, List.getElem_map, List.getElem_mapIdx, List.getElem_range]
  rfl

/-- The identifiers in the tree of a heading: those of the frame, then those of the panels. -/
theorem keysOf_rootInfo (hdistinct : (site.atlas.entries.map Entry.id).Nodup) {heading : Entry}
    (hheading : heading ∈ site.atlas.entries) {slug : String}
    (hslug : site.slug? heading.id = some slug) (index : ℕ) :
    site.keysOf (site.rootInfo index heading).toSketch =
      (framePlaces (site.atlas.headings.map fun target => spelled (site.slug? target.id))
          (heading.members site.atlas.get?).length).map (Place.key slug) ++
        (site.headingTabs heading slug).flatMap fun tab =>
          site.keysOf (panelSketch (wrapperSketch heading slug).spec tab) := by
  have hroot : (site.rootInfo index heading).toSketch.key? =
      some ((Place.frame .root).key slug) := by
    simp only [rootInfo, sketch, Sketch.key?, Sketch.attribute?, hslug]
    rfl
  have hlinks : (site.atlas.headings.map (site.navSublink (some ("nav-" ++ slug)))).filterMap
      Sketch.key? =
        ((site.atlas.headings.map fun target => spelled (site.slug? target.id)).map
          Place.sublink).map (Place.key slug) := by
    rw [List.filterMap_map, List.map_map, List.map_map, ← List.filterMap_eq_map]
    rfl
  have htabs : ((site.headingTabs heading slug).map
      (tabSketch (stripSketch heading slug).spec)).filterMap Sketch.key? =
        ((tabNumbers (heading.members site.atlas.get?).length).map Place.tab).map
          (Place.key slug) := by
    have hkeys : (Place.key slug ∘ Place.tab) = (fun id => ("tab", id)) ∘ viewId slug := rfl
    rw [List.filterMap_map, List.map_map, hkeys, ← List.map_map, ← map_domId_headingTabs,
      List.map_map, ← List.filterMap_eq_map]
    rfl
  have hlink : (linkSketch heading slug).key? = some ((Place.frame .link).key slug) := rfl
  have hcontainer : (containerSketch heading slug).key? =
      some ((Place.frame .container).key slug) := rfl
  have hstrip : (stripSketch heading slug).key? = some ((Place.frame .strip).key slug) := rfl
  have hwrapper : (wrapperSketch heading slug).key? =
      some ((Place.frame .wrapper).key slug) := rfl
  rw [keysOf, outline_rootInfo hdistinct hheading hslug index]
  simp only [List.filterMap_append, List.filterMap_cons, hroot, hlink, hlinks, hcontainer, hstrip,
    htabs, hwrapper, List.filterMap_flatMap, framePlaces, List.map_append, List.map_cons,
    List.map_nil, List.append_assoc, List.singleton_append]
  rfl

/-- The overview of a heading is the only node with an identifier in its tree. -/
theorem keysOf_overview (hdistinct : (site.atlas.entries.map Entry.id).Nodup) {heading : Entry}
    (hheading : heading ∈ site.atlas.entries) (slug : String) :
    site.keysOf (panelSketch (wrapperSketch heading slug).spec (overviewTab heading slug)) =
      [(Place.panel []).key slug] := by
  have hexpand (domId : Option String) : site.expand? domId
      (panelSketch (wrapperSketch heading slug).spec (overviewTab heading slug)).spec =
        some ((site.atlas.fieldsOf heading).map (fieldSketch (some heading.group))) := by
    simp [panelSketch, wrapperSketch, overviewTab, sketch, expand?, memberPanels,
      Atlas.latest?_eq_some_of_mem hdistinct hheading]
  rw [keysOf_eq (hexpand _), flatMap_keysOf_fields]
  rfl

/-- The identifiers of a heading's panels are those of panels, and none of them occurs twice. -/
theorem nodup_keysOf_panels (hdistinct : (site.atlas.entries.map Entry.id).Nodup) {heading : Entry}
    (hheading : heading ∈ site.atlas.entries) {slug : String} (hslug : [] ∉ segments slug) :
    ((site.headingTabs heading slug).flatMap fun tab =>
        site.keysOf (panelSketch (wrapperSketch heading slug).spec tab)).Nodup ∧
      ∀ key ∈ (site.headingTabs heading slug).flatMap fun tab =>
          site.keysOf (panelSketch (wrapperSketch heading slug).spec tab),
        ∃ numbers, [] <+: numbers ∧ key = (Place.panel numbers).key slug := by
  have hzip : ((heading.members site.atlas.get?).mapIdx (memberTab slug)).flatMap (fun tab =>
        site.keysOf (panelSketch (wrapperSketch heading slug).spec tab)) =
      ((heading.members site.atlas.get?).zipIdx.filter fun _ => true).flatMap fun pair =>
        site.keysOf (panelSketch (wrapperSketch heading slug).spec
          (memberTab slug pair.2 pair.1)) := by
    rw [List.mapIdx_eq_zipIdx_map, List.flatMap_map, List.filter_true]
  rw [headingTabs, List.flatMap_cons, keysOf_overview hdistinct hheading, hzip,
    List.singleton_append]
  refine nodup_panel_cons hslug fun pair hpair _ => ?_
  have hentry := Entry.mem_of_mem_members (fun _ _ => Atlas.mem_of_get?)
    (List.fst_mem_of_mem_zipIdx hpair)
  exact nodup_keysOf_panel hdistinct hslug hentry (List.cons_ne_nil _ _) rfl rfl

/-- The identifiers in the tree of a heading are those of places, and none of them occurs twice. -/
theorem nodup_keysOf_rootInfo (hdistinct : (site.atlas.entries.map Entry.id).Nodup)
    {heading : Entry} (hheading : heading ∈ site.atlas.entries) {slug : String}
    (hfound : site.slug? heading.id = some slug) (hslug : [] ∉ segments slug)
    (htargets : (site.atlas.headings.map fun target => spelled (site.slug? target.id)).Nodup)
    (index : ℕ) :
    (site.keysOf (site.rootInfo index heading).toSketch).Nodup ∧
      ∀ key ∈ site.keysOf (site.rootInfo index heading).toSketch,
        ∃ place : Place, key = place.key slug := by
  obtain ⟨hpanels, hpanel⟩ := nodup_keysOf_panels hdistinct hheading hslug
  rw [keysOf_rootInfo hdistinct hheading hfound index]
  constructor
  · refine List.Nodup.append ?_ hpanels ?_
    · refine (nodup_framePlaces htargets _).map fun p q h => ?_
      exact (Place.key_inj hslug hslug h).2
    · intro key hkey hkey'
      obtain ⟨place, hplace, rfl⟩ := List.mem_map.mp hkey
      obtain ⟨numbers, _, heq⟩ := hpanel _ hkey'
      obtain rfl := (Place.key_inj hslug hslug heq).2
      simp [framePlaces] at hplace
  · intro key hkey
    rcases List.mem_append.mp hkey with hkey | hkey
    · obtain ⟨place, _, rfl⟩ := List.mem_map.mp hkey
      exact ⟨place, rfl⟩
    · obtain ⟨numbers, _, rfl⟩ := hpanel key hkey
      exact ⟨.panel numbers, rfl⟩

end Site

namespace Atlas

variable {atlas : Atlas}

/-- With distinct identities no two headings have the same slug. -/
theorem nodup_map_slug (hdistinct : (atlas.entries.map Entry.id).Nodup) :
    (atlas.headings.map fun heading => spelled ((atlas.site "").slug? heading.id)).Nodup := by
  refine List.Nodup.map_on ?_ ((List.Nodup.of_map _ hdistinct).filter _)
  intro first hfirst second hsecond heq
  obtain ⟨slug, hslug⟩ := exists_slug? hfirst ""
  obtain ⟨slug', hslug'⟩ := exists_slug? hsecond ""
  rw [hslug, hslug'] at heq
  obtain rfl : slug = slug' := heq
  have hid := id_eq_of_slug_eq hslug hslug'
  exact eq_of_id_eq hdistinct (mem_of_mem_headings hfirst) (mem_of_mem_headings hsecond) hid

/-- No two nodes of the forest have the same kind and the same identifier. -/
theorem nodup_keys_forest (hdistinct : (atlas.entries.map Entry.id).Nodup) :
    ((Node.nodesAll atlas.forest).filterMap (·.info.key?)).Nodup := by
  have hsite : ((atlas.site "").atlas.entries.map Entry.id).Nodup := hdistinct
  have htree {heading : Entry} (hheading : heading ∈ atlas.headings) {slug : String}
      (hslug : (atlas.site "").slug? heading.id = some slug) :=
    Site.nodup_keysOf_rootInfo hsite (mem_of_mem_headings hheading) hslug
      (nil_notMem_segments_slug hslug) (nodup_map_slug hdistinct) 0
  have hkeys : (Node.nodesAll atlas.forest).filterMap (·.info.key?) =
      atlas.headings.flatMap fun heading =>
        (atlas.site "").keysOf ((atlas.site "").rootInfo 0 heading).toSketch := by
    rw [Node.nodesAll_eq_flatMap, forest, Site.forest, List.filterMap_flatMap, List.flatMap_map]
    refine Site.flatMap_mapIdx fun index heading _ => ?_
    have hsketch : ((atlas.site "").rootInfo 0 heading).toSketch =
        ((atlas.site "").rootInfo index heading).toSketch := rfl
    rw [hsketch, Site.keysOf, Site.outline_toSketch, List.filterMap_map]
    rfl
  rw [hkeys, List.nodup_flatMap]
  constructor
  · intro heading hheading
    obtain ⟨slug, hslug⟩ := exists_slug? hheading ""
    exact (htree hheading hslug).1
  · refine (List.Nodup.pairwise_of_forall_ne ((List.Nodup.of_map _ hdistinct).filter _) ?_)
    intro first hfirst second hsecond hne key hkey hkey'
    obtain ⟨slug, hslug⟩ := exists_slug? hfirst ""
    obtain ⟨slug', hslug'⟩ := exists_slug? hsecond ""
    obtain ⟨place, rfl⟩ := (htree hfirst hslug).2 key hkey
    obtain ⟨place', heq⟩ := (htree hsecond hslug').2 _ hkey'
    obtain ⟨rfl, _⟩ := Place.key_inj (nil_notMem_segments_slug hslug)
      (nil_notMem_segments_slug hslug') heq
    refine hne (eq_of_id_eq hdistinct (mem_of_mem_headings hfirst) (mem_of_mem_headings hsecond) ?_)
    exact id_eq_of_slug_eq hslug hslug'

/-- No two nodes of the forest that have the same kind share an identifier, over all headings and at
all depths. -/
theorem forest_domIds_distinct (hdistinct : (atlas.entries.map Entry.id).Nodup) :
    (Node.nodesAll atlas.forest).Pairwise fun first second =>
      first.info.kind = second.info.kind →
        first.info.attribute? Attributes.domId = second.info.attribute? Attributes.domId →
          first.info.attribute? Attributes.domId = none := by
  have hnodup := nodup_keys_forest hdistinct
  rw [List.Nodup, List.pairwise_filterMap] at hnodup
  refine hnodup.imp fun {first second} hkeys hkind hid => ?_
  cases hfirst : first.info.attribute? Attributes.domId with
  | none => rfl
  | some id =>
    have hkey : first.info.key? = some (first.info.kind, id) := by rw [Sketch.key?, hfirst]; rfl
    have hkey' : second.info.key? = some (first.info.kind, id) := by
      rw [Sketch.key?, ← hid, hfirst, hkind]
      rfl
    exact absurd rfl (hkeys _ hkey _ hkey')

/-- Headings whose names give the same slug, or slugs that continue each other. -/
def lookalikes : Atlas :=
  { entries :=
      [.declaring "a" ["foo"] ["b", "c"], .declaring "b" ["Foo"] ["c", "a"],
        .declaring "c" ["foo 2"] ["c", "d"], .declaring "d" ["foo tab 1"] ["a"],
        .declaring "e" ["foo overview"] ["d", "b"]]
    namespaces := []
    modules := []
    files := [] }

/-- No two nodes of a kind share an identifier in the forest of headings that look alike. -/
theorem forest_domIds_distinct_lookalikes :
    (lookalikes.entries.map Entry.id).Nodup ∧
      (Node.nodesAll lookalikes.forest).Pairwise fun first second =>
        first.info.kind = second.info.kind →
          first.info.attribute? Attributes.domId = second.info.attribute? Attributes.domId →
            first.info.attribute? Attributes.domId = none := by
  have hdistinct : (lookalikes.entries.map Entry.id).Nodup := by decide
  exact ⟨hdistinct, forest_domIds_distinct hdistinct⟩

end Atlas

end DocAtlas
