import DocAtlas.Element.Slug
import DocAtlas.Proofs.Text.Pieces
import Mathlib.Data.List.Nodup
import Mathlib.Data.List.Perm.Subperm
import Mathlib.Order.Bounds.Defs

/-!
# Slugs tell headings apart

A slug consists of words between dashes, none of them empty, and no two headings of an atlas have the
same slug, whatever their names are: among as many numbers as there are taken slugs one is free.
-/

namespace DocAtlas

open DocAtlas.Text

/-- The segments of an identifier between its dashes. -/
def segments (s : String) : List (List Char) :=
  splitWhere (· == '-') s.toList

/-- Identifiers with the same segments are the same. -/
theorem segments_injective : Function.Injective segments := by
  intro s t h
  exact String.toList_inj.mp (splitWhere_injective '-' h)

/-- A dash separates the segments of both sides. -/
theorem segments_append_dash (s t : String) :
    segments (s ++ "-" ++ t) = segments s ++ segments t := by
  have hdash : "-".toList = ['-'] := rfl
  rw [segments, String.toList_append, String.toList_append, hdash, List.append_assoc,
    List.singleton_append, splitWhere_append_cons (by decide)]
  rfl

/-- A number is written with digits. -/
theorem isDigit_of_mem_repr {n : ℕ} {c : Char} (h : c ∈ n.repr.toList) : c.isDigit = true := by
  rw [Nat.repr_eq_ofList_toDigits, String.toList_ofList] at h
  exact Nat.isDigit_of_mem_toDigits (by decide) (by decide) h

/-- A number is written without dashes. -/
theorem segments_repr (n : ℕ) : segments n.repr = [n.repr.toList] := by
  refine splitWhere_of_forall fun c hc => ?_
  have hdigit := isDigit_of_mem_repr hc
  rw [beq_eq_false_iff_ne]
  intro heq
  rw [heq] at hdigit
  exact absurd hdigit (by decide)

/-- Different numbers are written differently. -/
theorem toList_repr_injective : Function.Injective fun n : ℕ => n.repr.toList := by
  intro m n h
  have hdigits : Nat.toDigits 10 m = Nat.toDigits 10 n := by
    simpa only [Nat.repr_eq_ofList_toDigits, String.toList_ofList] using h
  calc
    m = Nat.ofDigitChars 10 (Nat.toDigits 10 m) 0 := Nat.ofDigitChars_ten_toDigits.symm
    _ = Nat.ofDigitChars 10 (Nat.toDigits 10 n) 0 := by rw [hdigits]
    _ = n := Nat.ofDigitChars_ten_toDigits

/-- A word of a slug: slug characters, at least one. -/
def IsSlugWord (word : List Char) : Prop :=
  word ≠ [] ∧ ∀ c ∈ word, isSlugChar c = true

/-- A slug made of a name has words for its segments. -/
theorem isSlugWord_of_mem_slugify (name : String) :
    ∀ segment ∈ segments (slugify name), IsSlugWord segment := by
  unfold slugify
  split
  · intro segment hsegment
    obtain rfl := List.mem_singleton.mp hsegment
    exact ⟨by decide, List.all_eq_true.mp (by decide)⟩
  · next words hne =>
    have hwords : ∀ word ∈ slugWords name, IsSlugWord word := by
      intro word hword
      obtain ⟨hpiece, hnonempty⟩ := List.mem_filter.mp hword
      refine ⟨by simpa using hnonempty, fun c hc => ?_⟩
      simpa using forall_mem_splitWhere _ _ word hpiece c hc
    have hdash : ∀ word ∈ slugWords name, ∀ c ∈ word, (c == '-') = false := by
      intro word hword c hc
      rw [beq_eq_false_iff_ne]
      intro heq
      have hslug := (hwords word hword).2 c hc
      rw [heq] at hslug
      exact absurd hslug (by decide)
    rw [segments, String.toList_ofList, splitWhere_joinWith (by decide) hne hdash]
    exact hwords

/-- A number is a word. -/
theorem isSlugWord_repr (n : ℕ) : IsSlugWord n.repr.toList := by
  constructor
  · rw [ne_eq, String.toList_eq_nil_iff]
    exact Nat.repr_ne_empty
  · intro c hc
    have hdigit : ('0' ≤ c && c ≤ '9') = true := isDigit_of_mem_repr hc
    rw [isSlugChar, hdigit, Bool.or_true]

/-- A numbered slug has the segments of its base and the number. -/
theorem segments_numberedSlug (base : String) (n : ℕ) :
    segments (numberedSlug base n) = segments base ++ [n.repr.toList] := by
  rw [numberedSlug, segments_append_dash, segments_repr]

/-- The first free slug of a base has words for its segments if the base has. -/
theorem isSlugWord_of_mem_freeSlug (taken : List String) {base : String}
    (hbase : ∀ segment ∈ segments base, IsSlugWord segment) :
    ∀ segment ∈ segments (freeSlug taken base), IsSlugWord segment := by
  unfold freeSlug
  split
  · intro segment hsegment
    rw [segments_numberedSlug] at hsegment
    rcases List.mem_append.mp hsegment with hfront | hnumber
    · exact hbase segment hfront
    · rw [List.mem_singleton.mp hnumber]
      exact isSlugWord_repr _
  · exact hbase

/-- Different numbers make different slugs. -/
theorem numberedSlug_injective (base : String) : Function.Injective (numberedSlug base) := by
  intro m n h
  have hsegments := congrArg segments h
  rw [segments_numberedSlug, segments_numberedSlug] at hsegments
  have hlast := List.append_cancel_left hsegments
  exact toList_repr_injective (List.cons.inj hlast).1

/-- A number makes a slug that is not its base. -/
theorem numberedSlug_ne (base : String) (n : ℕ) : numberedSlug base n ≠ base := by
  intro h
  have hlength := congrArg (fun slug => (segments slug).length) h
  simp only [segments_numberedSlug, List.length_append, List.length_singleton] at hlength
  omega

/-- If the base is taken, one of as many numbers as there are taken slugs is free. -/
theorem exists_numberedSlug_notMem {taken : List String} {base : String} (hbase : base ∈ taken) :
    ∃ i < taken.length, numberedSlug base (i + 2) ∉ taken := by
  by_contra hall
  push Not at hall
  -- Otherwise the base and the numbered slugs would be too many different slugs to be taken.
  have hnodup :
      (base :: (List.range taken.length).map fun i => numberedSlug base (i + 2)).Nodup := by
    rw [List.nodup_cons]
    constructor
    · intro hmem
      obtain ⟨i, _, hi⟩ := List.mem_map.mp hmem
      exact numberedSlug_ne base (i + 2) hi
    · refine List.Nodup.map ?_ List.nodup_range
      intro i j h
      exact Nat.add_right_cancel (numberedSlug_injective base h)
  have hsubset : base :: ((List.range taken.length).map fun i => numberedSlug base (i + 2)) ⊆
      taken := by
    rw [List.cons_subset]
    refine ⟨hbase, fun slug hslug => ?_⟩
    obtain ⟨i, hi, rfl⟩ := List.mem_map.mp hslug
    exact hall i (List.mem_range.mp hi)
  have hlength := (List.subperm_of_subset hnodup hsubset).length_le
  rw [List.length_cons, List.length_map, List.length_range] at hlength
  exact Nat.not_succ_le_self _ hlength

/-- If the base is taken, the first free number is the least one from two on that makes a slug which
is not taken. -/
theorem isLeast_freeNumber {taken : List String} {base : String} (hbase : base ∈ taken) :
    IsLeast {n | 2 ≤ n ∧ numberedSlug base n ∉ taken} (freeNumber taken base) := by
  obtain ⟨i, hi, hfree⟩ := exists_numberedSlug_notMem hbase
  cases hfound : (List.range taken.length).find? fun i => numberedSlug base (i + 2) ∉ taken with
  | none =>
    have hnone := List.find?_eq_none.mp hfound i (List.mem_range.mpr hi)
    exact absurd hfree (by simpa using hnone)
  | some found =>
    obtain ⟨hnew, -, hbefore⟩ := List.find?_range_eq_some.mp hfound
    rw [freeNumber, hfound, Option.getD_some]
    constructor
    · exact ⟨by omega, by simpa using hnew⟩
    · intro n hn
      obtain ⟨htwo, hn⟩ := hn
      by_contra hlt
      have htaken := hbefore (n - 2) (by omega)
      rw [Nat.sub_add_cancel htwo] at htaken
      exact absurd hn (by simpa using htaken)

/-- The first free slug of a base is not taken. -/
theorem freeSlug_notMem (taken : List String) (base : String) : freeSlug taken base ∉ taken := by
  unfold freeSlug
  split
  · next hbase => exact (isLeast_freeNumber hbase).1.2
  · next hbase => exact hbase

/-- Assigned slugs have words for their segments, and they repeat neither each other nor a taken
one. -/
theorem assignSlugs_distinct (taken : List String) (headings : List Entry) :
    ((assignSlugs taken headings).map Prod.snd).Nodup ∧
      ∀ slug ∈ (assignSlugs taken headings).map Prod.snd,
        slug ∉ taken ∧ ∀ segment ∈ segments slug, IsSlugWord segment := by
  induction headings generalizing taken with
  | nil => simp [assignSlugs]
  | cons heading rest ih =>
    obtain ⟨hnodup, hslugs⟩ := ih (freeSlug taken (slugify heading.group) :: taken)
    rw [assignSlugs, List.map_cons, List.nodup_cons, List.forall_mem_cons]
    refine ⟨⟨?_, hnodup⟩, ⟨freeSlug_notMem taken _, ?_⟩, ?_⟩
    · intro hmem
      exact (hslugs _ hmem).1 List.mem_cons_self
    · exact isSlugWord_of_mem_freeSlug taken (isSlugWord_of_mem_slugify _)
    · intro slug hslug
      obtain ⟨hnew, hsegments⟩ := hslugs slug hslug
      exact ⟨fun hmem => hnew (List.mem_cons_of_mem _ hmem), hsegments⟩

/-- A slug that is found under an identity is in the table. -/
theorem SlugTable.mem_of_get? {table : SlugTable} {id slug : String}
    (h : table.get? id = some slug) : (id, slug) ∈ table := by
  obtain ⟨pair, hpair, rfl⟩ := Option.map_eq_some_iff.mp h
  rw [List.findRev?_eq_find?_reverse] at hpair
  have hid : pair.1 = id := by simpa using List.find?_some hpair
  rw [← hid]
  exact List.mem_reverse.mp (List.mem_of_find?_eq_some hpair)

namespace Atlas

variable {atlas : Atlas}

/-- The slug of a heading has no empty segment. -/
theorem nil_notMem_segments_slug {id slug : String} (h : atlas.slugs.get? id = some slug) :
    [] ∉ segments slug := by
  intro hnil
  have hwords := ((assignSlugs_distinct [] atlas.headings).2 slug
    (List.mem_map_of_mem (SlugTable.mem_of_get? h))).2
  exact (hwords [] hnil).1 rfl

/-- Headings with the same slug have the same identity. -/
theorem id_eq_of_slug_eq {first second slug : String} (hfirst : atlas.slugs.get? first = some slug)
    (hsecond : atlas.slugs.get? second = some slug) : first = second := by
  have heq := List.inj_on_of_nodup_map (assignSlugs_distinct [] atlas.headings).1
    (SlugTable.mem_of_get? hfirst) (SlugTable.mem_of_get? hsecond) rfl
  exact congrArg Prod.fst heq

end Atlas

end DocAtlas
