import DocAtlas.Proofs.Element.DomIds
import Mathlib.Data.Set.Operations

/-!
# The search for a free slug

A heading gets the slug of its first namespace if no earlier heading has it. Otherwise numbers are
tried from two on until one makes a slug that is free, also where the name of an earlier heading
already gives a slug with that number. The search has no bound of its own: it ends because only
finitely many slugs are taken, and it ends at the least number.

What is found is a slug again: words of lower-case letters and digits with single dashes between
them.
-/

namespace DocAtlas

open DocAtlas.Text

/-! ## The search -/

section Search

variable {taken : Set String} {base slug found other : String} {n : ℕ}

/-- The search for a free slug from some number on, at a slug that is tried: a free slug ends it, and
a taken one is followed by the slug of the next number. -/
inductive Searches (taken : Set String) (base : String) : ℕ → String → String → Prop where
  | free {n : ℕ} {slug : String} (h : slug ∉ taken) : Searches taken base n slug slug
  | next {n : ℕ} {slug found : String} (h : slug ∈ taken)
      (hnext : Searches taken base (n + 1) (numberedSlug base (n + 1)) found) :
      Searches taken base n slug found

/-- The first free slug of a base: the base itself if it is free, and otherwise the base with the
least number from two on that makes a free slug. -/
inductive FirstFree (taken : Set String) (base : String) : String → Prop where
  | base (h : base ∉ taken) : FirstFree taken base base
  | numbered {n : ℕ} (h : base ∈ taken)
      (hleast : IsLeast {n | 2 ≤ n ∧ numberedSlug base n ∉ taken} n) :
      FirstFree taken base (numberedSlug base n)

/-- A search ends with one slug only. -/
theorem Searches.unique (h : Searches taken base n slug found)
    (hother : Searches taken base n slug other) : other = found := by
  induction h with
  | free hfree =>
    cases hother with
    | free => rfl
    | next htaken => exact absurd htaken hfree
  | next htaken _ ih =>
    cases hother with
    | free hfree => exact absurd htaken hfree
    | next _ hnext => exact ih hnext

/-- From every number before the least one that makes a free slug, the search comes to that one. -/
theorem searches_of_isLeast (hleast : IsLeast {n | 2 ≤ n ∧ numberedSlug base n ∉ taken} n)
    {start : ℕ} (htwo : 2 ≤ start) (hle : start ≤ n) :
    Searches taken base start (numberedSlug base start) (numberedSlug base n) := by
  -- The distance to the least number goes down by one with each number that is tried.
  induction hdistance : n - start generalizing start with
  | zero =>
    obtain rfl : start = n := by omega
    exact .free hleast.1.2
  | succ distance ih =>
    have htaken : numberedSlug base start ∈ taken := by
      by_contra hfree
      have := hleast.2 ⟨htwo, hfree⟩
      omega
    apply Searches.next htaken
    apply ih <;> omega

/-- The search from the base on ends with the first free slug. -/
theorem FirstFree.searches (h : FirstFree taken base slug) : Searches taken base 1 base slug := by
  cases h with
  | base hfree => exact .free hfree
  | numbered htaken hleast =>
    exact .next htaken (searches_of_isLeast hleast le_rfl hleast.1.1)

end Search

/-- What is assigned to a heading is the first free slug of its base. -/
theorem firstFree_freeSlug (taken : List String) (base : String) :
    FirstFree {slug | slug ∈ taken} base (freeSlug taken base) := by
  unfold freeSlug
  split
  · next hbase => exact .numbered hbase (isLeast_freeNumber hbase)
  · next hbase => exact .base hbase

/-! ## The shape of slugs -/

/-- A slug: lower-case letters and digits, with single dashes between them. -/
structure IsSlug (slug : String) : Prop where
  nonempty : slug ≠ ""
  alphabet : ∀ c ∈ slug.toList, ('a' ≤ c ∧ c ≤ 'z') ∨ ('0' ≤ c ∧ c ≤ '9') ∨ c = '-'
  first : slug.toList.head? ≠ some '-'
  last : slug.toList.getLast? ≠ some '-'
  single : ¬['-', '-'] <:+: slug.toList

/-- What has words for its segments is a slug. -/
theorem isSlug_of_segments {slug : String} (h : ∀ segment ∈ segments slug, IsSlugWord segment) :
    IsSlug slug := by
  have hnil : [] ∉ segments slug := fun hmem => (h [] hmem).1 rfl
  have hdash (front back : List Char) (heq : slug.toList = front ++ '-' :: back) :
      [] ∉ splitWhere (· == '-') front ∧ [] ∉ splitWhere (· == '-') back := by
    rwa [segments, heq, splitWhere_append_cons (by decide), List.mem_append, not_or] at hnil
  constructor
  · intro heq
    rw [heq] at hnil
    exact hnil (by decide)
  · intro c hc
    rcases exists_mem_splitWhere (p := (· == '-')) hc with hseparator | ⟨segment, hsegment, hmem⟩
    · exact Or.inr (Or.inr (by simpa using hseparator))
    · have hslug := (h segment hsegment).2 c hmem
      simp only [isSlugChar, Bool.or_eq_true, Bool.and_eq_true, decide_eq_true_eq] at hslug
      exact hslug.imp id Or.inl
  · intro hfirst
    obtain ⟨back, heq⟩ := List.head?_eq_some_iff.mp hfirst
    exact (hdash [] back heq).1 (by decide)
  · intro hlast
    obtain ⟨front, heq⟩ := List.getLast?_eq_some_iff.mp hlast
    exact (hdash front [] heq).2 (by decide)
  · intro hdouble
    obtain ⟨front, back, heq⟩ := hdouble
    rw [List.append_assoc] at heq
    apply (hdash front ('-' :: back) heq.symm).2
    simp [splitWhere]

/-! ## The slugs of headings -/

/-- Slugs are assigned to later headings when those of the earlier ones are taken. -/
theorem assignSlugs_append (taken : List String) (earlier later : List Entry) :
    assignSlugs taken (earlier ++ later) = assignSlugs taken earlier ++
      assignSlugs (((assignSlugs taken earlier).map Prod.snd).reverse ++ taken) later := by
  induction earlier generalizing taken with
  | nil => rfl
  | cons heading earlier ih =>
    rw [List.cons_append, assignSlugs, assignSlugs, ih]
    simp

/-- Under identities that differ, what is in a table is found. -/
theorem SlugTable.get?_eq_some_iff {table : SlugTable} (hids : (table.map Prod.fst).Nodup)
    {id slug : String} : table.get? id = some slug ↔ (id, slug) ∈ table := by
  refine ⟨mem_of_get?, fun hmem => ?_⟩
  obtain ⟨found, hfound⟩ : ∃ found, table.get? id = some found := by
    apply Option.isSome_iff_exists.mp
    rw [get?, List.findRev?_eq_find?_reverse, Option.isSome_map, List.find?_isSome]
    exact ⟨(id, slug), List.mem_reverse.mpr hmem, by simp⟩
  have hpair := List.inj_on_of_nodup_map hids (mem_of_get? hfound) hmem rfl
  rw [hfound, (Prod.mk.inj hpair).2]

namespace Atlas

/-- The slugs that some headings have. -/
def slugsOf (atlas : Atlas) (headings : List Entry) : Set String :=
  {slug | ∃ heading ∈ headings, atlas.slugs.get? heading.id = some slug}

variable {atlas : Atlas}

/-- Headings with different identities have the slugs that are assigned to them, the later ones after
the earlier ones. -/
theorem get?_slugs_of_nodup (hids : (atlas.headings.map Entry.id).Nodup)
    {earlier later : List Entry} {heading : Entry}
    (hheadings : atlas.headings = earlier ++ heading :: later) :
    ∃ taken : List String, atlas.slugsOf earlier = {slug | slug ∈ taken} ∧
      atlas.slugs.get? heading.id = some (freeSlug taken (slugify heading.group)) := by
  have hfst : atlas.slugs.map Prod.fst = atlas.headings.map Entry.id := map_fst_assignSlugs _ _
  have hget {id slug : String} : atlas.slugs.get? id = some slug ↔ (id, slug) ∈ atlas.slugs :=
    SlugTable.get?_eq_some_iff (hfst ▸ hids)
  have hslugs : atlas.slugs = assignSlugs [] earlier ++
      assignSlugs ((assignSlugs [] earlier).map Prod.snd).reverse (heading :: later) := by
    rw [slugs, hheadings, assignSlugs_append, List.append_nil]
  refine ⟨((assignSlugs [] earlier).map Prod.snd).reverse, ?_, ?_⟩
  · ext slug
    simp only [slugsOf, Set.mem_ofPred_eq, hget, List.mem_reverse, List.mem_map]
    constructor
    · intro h
      obtain ⟨other, hother, hmem⟩ := h
      -- The pair stands among those of the earlier headings, as no later one has the identity.
      rw [hslugs, List.mem_append] at hmem
      rcases hmem with hmem | hmem
      · exact ⟨(other.id, slug), hmem, rfl⟩
      · have hlater : other.id ∈ (heading :: later).map Entry.id := by
          rw [← map_fst_assignSlugs]
          exact List.mem_map_of_mem hmem
        rw [hheadings, List.map_append] at hids
        exact absurd hlater (List.disjoint_of_nodup_append hids (List.mem_map_of_mem hother))
    · intro h
      obtain ⟨⟨id, found⟩, hmem, rfl⟩ := h
      have hid : id ∈ earlier.map Entry.id := by
        rw [← map_fst_assignSlugs []]
        exact List.mem_map_of_mem hmem
      obtain ⟨other, hother, rfl⟩ := List.mem_map.mp hid
      exact ⟨other, hother, hslugs ▸ List.mem_append_left _ hmem⟩
  · rw [hget, hslugs, assignSlugs]
    exact List.mem_append_right _ List.mem_cons_self

/-- Headings with different identities have different slugs. The search for the slug of a heading
ends, and it ends with the slug of the heading only: that of its first namespace if no earlier
heading has it, and otherwise the one with the least number from two on that no earlier heading has.
It is made of lower-case letters and digits with single dashes between them. -/
theorem slugs_firstFree (hids : (atlas.headings.map Entry.id).Nodup) :
    (atlas.headings.map fun heading => atlas.slugs.get? heading.id).Nodup ∧
      ∀ earlier heading later, atlas.headings = earlier ++ heading :: later →
        ∃ slug, atlas.slugs.get? heading.id = some slug ∧
          (∀ found, Searches (atlas.slugsOf earlier) (slugify heading.group) 1
            (slugify heading.group) found ↔ found = slug) ∧
          FirstFree (atlas.slugsOf earlier) (slugify heading.group) slug ∧ IsSlug slug := by
  constructor
  · apply List.Nodup.map_on
    · intro first hfirst second hsecond hslugs
      obtain ⟨earlier, later, hheadings⟩ := List.append_of_mem hfirst
      obtain ⟨_, _, hslug⟩ := get?_slugs_of_nodup hids hheadings
      have hid : first.id = second.id := id_eq_of_slug_eq hslug (hslugs ▸ hslug)
      exact List.inj_on_of_nodup_map hids hfirst hsecond hid
    · exact hids.of_map
  · intro earlier heading later hheadings
    obtain ⟨taken, htaken, hslug⟩ := get?_slugs_of_nodup hids hheadings
    have hfirst := firstFree_freeSlug taken (slugify heading.group)
    rw [htaken]
    refine ⟨_, hslug, fun found => ⟨hfirst.searches.unique, ?_⟩, hfirst, ?_⟩
    · intro hfound
      rw [hfound]
      exact hfirst.searches
    · exact isSlug_of_segments (isSlugWord_of_mem_freeSlug taken (isSlugWord_of_mem_slugify _))

/-- The second heading of a name gets the number two, which the third one has in its name. -/
theorem slugs_firstFree_lookalikes :
    (lookalikes.headings.map Entry.id).Nodup ∧
      (lookalikes.headings.map fun heading => lookalikes.slugs.get? heading.id).Nodup ∧
      lookalikes.slugs.get? "c" = some "foo-2-2" ∧
      Searches (lookalikes.slugsOf (lookalikes.headings.take 2)) "foo-2" 1 "foo-2" "foo-2-2" ∧
      IsSlug "foo-2-2" := by
  have hids : (lookalikes.headings.map Entry.id).Nodup := by decide
  have hslug : lookalikes.slugs.get? "c" = some "foo-2-2" := by decide +kernel
  obtain ⟨hnodup, hslugs⟩ := slugs_firstFree hids
  obtain ⟨slug, hget, hsearch, -, hshape⟩ := hslugs (lookalikes.headings.take 2)
    (.declaring "c" ["foo 2"] ["c", "d"]) (lookalikes.headings.drop 3) rfl
  obtain rfl : "foo-2-2" = slug := Option.some.inj (hslug.symm.trans hget)
  have hbase : slugify "foo 2" = "foo-2" := by decide +kernel
  refine ⟨hids, hnodup, hslug, ?_, hshape⟩
  rw [← hbase]
  exact (hsearch "foo-2-2").mpr rfl

end Atlas

end DocAtlas
