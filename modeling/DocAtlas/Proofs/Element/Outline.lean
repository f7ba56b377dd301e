import DocAtlas.Proofs.Element.Panels

/-!
# The outline of a heading

The tree of a heading has a fixed frame: a navigation link with one link per heading, and a
container with the tabs and the wrapper of the panels. Only what grows below the panels depends on
how the entries are linked, so whatever is said of all nodes of a heading is said of the frame once
and of its panels by induction.
-/

namespace DocAtlas.Site

open DocAtlas.Element

variable {site : Site}

/-- The sketch of the navigation link of a heading. -/
def linkSketch (heading : Entry) (slug : String) : Sketch :=
  sketch "nav-link" "nav-header-link"
    { value := some heading.group
      group := some heading.group
      subGroup := heading.modules.head?
      domId := some ("nav-" ++ slug) }
    (some heading.id)
    { expand := .navLinks, sourceId := some heading.id, group := some heading.group }

/-- The sketch of the container of a heading. -/
def containerSketch (heading : Entry) (slug : String) : Sketch :=
  sketch "container" "container"
    { group := some heading.group, domId := some ("container-" ++ slug) }
    (some heading.id)
    { expand := .container, sourceId := some heading.id, group := some heading.group }

/-- The sketch of the tab strip of a heading. -/
def stripSketch (heading : Entry) (slug : String) : Sketch :=
  sketch "tab-strip" "tab-strip-nav"
    { group := some heading.group, domId := some ("tab-strip-" ++ slug) }
    (some heading.id)
    { expand := .tabs, sourceId := some heading.id, group := some heading.group }

/-- The sketch of the wrapper of a heading's panels. -/
def wrapperSketch (heading : Entry) (slug : String) : Sketch :=
  sketch "content-wrapper" "content-wrapper"
    { group := some heading.group, domId := some ("content-" ++ slug) }
    (some heading.id)
    { expand := .panels, sourceId := some heading.id, group := some heading.group }

/-- The tab of a heading's own overview. -/
def overviewTab (heading : Entry) (slug : String) : Tab :=
  { entry := heading, label := "Overview", domId := slug ++ "-overview" }

/-- The tab of a member of a heading at a position. -/
def memberTab (slug : String) (index : ℕ) (member : Entry) : Tab :=
  { entry := member, label := member.title, domId := slug ++ "-tab-" ++ (index + 1).repr }

/-- The tabs of a heading: its overview and one per member. -/
def headingTabs (site : Site) (heading : Entry) (slug : String) : List Tab :=
  overviewTab heading slug :: (heading.members site.atlas.get?).mapIdx (memberTab slug)

/-- A sketch without children is its whole outline. -/
theorem outline_leaf {sketch : Sketch} (h : sketch.spec.expand = .none) :
    site.outline sketch = [sketch] := by
  have hexpand : site.expand? (sketch.attribute? Attributes.domId) sketch.spec = some [] := by
    rw [expand?, h]
  rw [outline_eq hexpand, List.flatMap_nil]

/-- Sketches without children are their whole outline. -/
theorem flatMap_outline_map {α : Type} (values : List α) {f : α → Sketch}
    (h : ∀ value, (f value).spec.expand = .none) :
    (values.map f).flatMap site.outline = values.map f := by
  induction values with
  | nil => rfl
  | cons first rest ih =>
    rw [List.map_cons, List.flatMap_cons, outline_leaf (h first), ih, List.singleton_append]

section

variable (hdistinct : (site.atlas.entries.map Entry.id).Nodup) {heading : Entry}
  (hheading : heading ∈ site.atlas.entries) {slug : String}
  (hslug : site.slug? heading.id = some slug)

include hslug in
/-- The container of a heading has a tab strip and a wrapper of panels. -/
theorem expand?_containerSketch (domId : Option String) :
    site.expand? domId (containerSketch heading slug).spec =
      some [stripSketch heading slug, wrapperSketch heading slug] := by
  simp [containerSketch, sketch, expand?, containerChildren?, hslug, stripSketch, wrapperSketch]

include hdistinct hheading hslug

/-- The root of a heading has a navigation link and a container. -/
theorem expand?_rootInfo (index : ℕ) (domId : Option String) :
    site.expand? domId (site.rootInfo index heading).spec =
      some [linkSketch heading slug, containerSketch heading slug] := by
  have hfound := Atlas.latest?_eq_some_of_mem hdistinct hheading
  simp [rootInfo, sketch, expand?, rootChildren?, hfound, hslug, linkSketch, containerSketch]

/-- With distinct identities the tabs of a heading are found by its identity. -/
theorem tabsOf?_eq_headingTabs :
    site.tabsOf? (some heading.id) = some (site.headingTabs heading slug) := by
  have hfound := Atlas.latest?_eq_some_of_mem hdistinct hheading
  simp only [tabsOf?, Option.bind_some, hfound, hslug, Option.bind_eq_bind,
    Atlas.panelMembers_eq hdistinct]
  rfl

/-- The tab strip of a heading has its tabs. -/
theorem expand?_stripSketch (domId : Option String) :
    site.expand? domId (stripSketch heading slug).spec =
      some ((site.headingTabs heading slug).map (tabSketch (stripSketch heading slug).spec)) := by
  simp [stripSketch, sketch, expand?, tabsOf?_eq_headingTabs hdistinct hheading hslug]

/-- The wrapper of a heading has one panel per tab. -/
theorem expand?_wrapperSketch (domId : Option String) :
    site.expand? domId (wrapperSketch heading slug).spec =
      some ((site.headingTabs heading slug).map
        (panelSketch (wrapperSketch heading slug).spec)) := by
  simp [wrapperSketch, sketch, expand?, tabsOf?_eq_headingTabs hdistinct hheading hslug]

/-- With distinct identities the outline of a heading is its frame, filled with one link per
heading, its tabs and the outlines of its panels. -/
theorem outline_rootInfo (index : ℕ) :
    site.outline (site.rootInfo index heading).toSketch =
      (site.rootInfo index heading).toSketch ::
        (linkSketch heading slug ::
            site.atlas.headings.map (site.navSublink (some ("nav-" ++ slug)))) ++
          containerSketch heading slug ::
            (stripSketch heading slug ::
                (site.headingTabs heading slug).map (tabSketch (stripSketch heading slug).spec)) ++
              wrapperSketch heading slug ::
                (site.headingTabs heading slug).flatMap fun tab =>
                  site.outline (panelSketch (wrapperSketch heading slug).spec tab) := by
  have hlink : site.expand? ((linkSketch heading slug).attribute? Attributes.domId)
      (linkSketch heading slug).spec =
        some (site.atlas.headings.map (site.navSublink (some ("nav-" ++ slug)))) := rfl
  rw [outline_eq (expand?_rootInfo hdistinct hheading hslug index _), List.flatMap_cons,
    List.flatMap_singleton, outline_eq hlink, flatMap_outline_map _ fun _ => rfl,
    outline_eq (expand?_containerSketch hslug _), List.flatMap_cons, List.flatMap_singleton,
    outline_eq (expand?_stripSketch hdistinct hheading hslug _),
    flatMap_outline_map _ fun _ => rfl,
    outline_eq (expand?_wrapperSketch hdistinct hheading hslug _), List.flatMap_map]
  simp only [List.cons_append, List.append_assoc]

end

end DocAtlas.Site
