import DocAtlas.Entry

/-!
# The atlas

An atlas is the whole documentation: all entries in order, with the declared namespaces, modules
and files.
-/

namespace DocAtlas

/-- A declared namespace or module: the entry that declared it first, and its name. -/
structure Declaration where
  id : String
  description : String
deriving DecidableEq

/-- A described file: the entry that described it first, the description, and its path. -/
structure FileDeclaration where
  id : String
  description : String
  filePath : String
deriving DecidableEq

/-- All entries in source order, with what they declare in order of declaration. -/
structure Atlas where
  entries : List Entry
  namespaces : List Declaration
  modules : List Declaration
  files : List FileDeclaration
deriving DecidableEq

/-- The entries of a list that are not seen before under the same identity. -/
def distinctById (seen : List String) : List Entry → List Entry
  | [] => []
  | entry :: rest =>
    if entry.id ∈ seen then distinctById seen rest
    else entry :: distinctById (entry.id :: seen) rest

/-- The entries at the other ends of an entry's edges to members, in the order of the edges, each
once. Edges to unknown entries are skipped. -/
def Entry.members (entry : Entry) (lookup : String → Option Entry) : List Entry :=
  distinctById [] (entry.children.filterMap fun edge => lookup edge.id)

/-- Entries kept once by identity are among the given ones. -/
theorem mem_of_mem_distinctById {seen : List String} {entries : List Entry} {entry : Entry}
    (h : entry ∈ distinctById seen entries) : entry ∈ entries := by
  induction entries generalizing seen with
  | nil => simp [distinctById] at h
  | cons first rest ih =>
    simp only [distinctById] at h
    split at h
    · exact List.mem_cons_of_mem _ (ih h)
    · rcases List.mem_cons.mp h with rfl | h
      · exact List.mem_cons_self
      · exact List.mem_cons_of_mem _ (ih h)

/-- The members of an entry satisfy whatever the entries that are looked up satisfy. -/
theorem Entry.mem_of_mem_members {lookup : String → Option Entry} {entries : List Entry}
    (hlookup : ∀ id found, lookup id = some found → found ∈ entries) {entry member : Entry}
    (h : member ∈ entry.members lookup) : member ∈ entries := by
  obtain ⟨edge, _, hedge⟩ := List.mem_filterMap.mp (mem_of_mem_distinctById h)
  exact hlookup _ _ hedge

/-- Counting with a stronger test gives less if some element passes only the weaker one. -/
theorem countP_lt_countP {α : Type} {p q : α → Bool} {l : List α}
    (himp : ∀ x ∈ l, p x = true → q x = true) {a : α} (ha : a ∈ l) (hp : p a = false)
    (hq : q a = true) : l.countP p < l.countP q := by
  induction l with
  | nil => simp at ha
  | cons b rest ih =>
    have hrest : rest.countP p ≤ rest.countP q :=
      List.countP_mono_left fun x hx => himp x (List.mem_cons_of_mem _ hx)
    rcases List.mem_cons.mp ha with rfl | ha
    · simp only [List.countP_cons, hp, hq]
      simp
      omega
    · have := ih (fun x hx => himp x (List.mem_cons_of_mem _ hx)) ha
      have hb := himp b List.mem_cons_self
      simp only [List.countP_cons]
      by_cases h : p b = true
      · simp [h, hb h]
        omega
      · simp [h]
        omega

namespace Atlas

/-- The first entry with the given identity. -/
def get? (atlas : Atlas) (id : String) : Option Entry :=
  atlas.entries.find? (·.id = id)

/-- The position of the first entry with the given identity. -/
def indexOf? (atlas : Atlas) (id : String) : Option Nat :=
  atlas.entries.findIdx? (·.id = id)

/-- The last entry with the given identity. -/
def latest? (atlas : Atlas) (id : String) : Option Entry :=
  atlas.entries.findRev? (·.id = id)

/-- The first entry found by an identity is an entry of the atlas. -/
theorem mem_of_get? {atlas : Atlas} {id : String} {entry : Entry}
    (h : atlas.get? id = some entry) : entry ∈ atlas.entries :=
  List.mem_of_find?_eq_some h

/-- The last entry found by an identity is an entry of the atlas. -/
theorem mem_of_latest? {atlas : Atlas} {id : String} {entry : Entry}
    (h : atlas.latest? id = some entry) : entry ∈ atlas.entries := by
  unfold latest? at h
  rw [List.findRev?_eq_find?_reverse] at h
  exact List.mem_reverse.mp (List.mem_of_find?_eq_some h)

/-- The entries that head a section. -/
def headings (atlas : Atlas) : List Entry :=
  atlas.entries.filter Entry.isHeading

end Atlas

end DocAtlas
