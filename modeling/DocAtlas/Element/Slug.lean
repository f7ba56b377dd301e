import DocAtlas.Atlas.Basic
import DocAtlas.Text.Lowercase

/-!
# Slugs

Every heading has a slug that stands for it in the identifiers of the page. A slug consists of
runs of lower-case ASCII letters and digits joined by single dashes. Headings whose names give one
slug are told apart by a number.
-/

namespace DocAtlas

open DocAtlas.Text

/-- May the character stand in a slug? -/
def isSlugChar (c : Char) : Bool :=
  ('a' ≤ c && c ≤ 'z') || ('0' ≤ c && c ≤ '9')

/-- The runs of slug characters of a name in lower case. -/
def slugWords (name : String) : List (List Char) :=
  (splitWhere (fun c => !isSlugChar c) (lower name.toList)).filter (· ≠ [])

/-- The slug of a name, `item` if the name has no slug characters. -/
def slugify (name : String) : String :=
  match slugWords name with
  | [] => "item"
  | words => String.ofList (joinWith ['-'] words)

/-- A slug with a number. -/
def numberedSlug (base : String) (n : Nat) : String :=
  base ++ "-" ++ n.repr

/-- The least number from two on that makes a slug which is not taken. As many numbers are tried as
there are taken slugs, which is enough if the base itself is one of them. -/
def freeNumber (taken : List String) (base : String) : Nat :=
  ((List.range taken.length).find? fun i => numberedSlug base (i + 2) ∉ taken).getD 0 + 2

/-- The base itself if it is not taken, and the first free numbered slug otherwise. -/
def freeSlug (taken : List String) (base : String) : String :=
  if base ∈ taken then numberedSlug base (freeNumber taken base) else base

/-- The slugs of headings by the identities of the headings. -/
abbrev SlugTable := List (String × String)

/-- The slug of an identity; of several headings with one identity the last one counts. -/
def SlugTable.get? (table : SlugTable) (id : String) : Option String :=
  (table.findRev? fun (heading, _) => heading = id).map Prod.snd

/-- Assign slugs to headings in order. -/
def assignSlugs (taken : List String) : List Entry → SlugTable
  | [] => []
  | heading :: rest =>
    let slug := freeSlug taken (slugify heading.group)
    (heading.id, slug) :: assignSlugs (slug :: taken) rest

namespace Atlas

/-- The slugs of the headings of an atlas. -/
def slugs (atlas : Atlas) : SlugTable :=
  assignSlugs [] atlas.headings

end Atlas

end DocAtlas
