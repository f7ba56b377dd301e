import DocAtlas.Text.Search

/-!
# Comment blocks

The blocks of a source text in a given comment style. A delimited block begins with its three
opening characters and ends with the first `*/` after them; a line block runs to the end of its
line. Blocks do not overlap, and an opening without an end is no block.
-/

namespace DocAtlas.Comment

open DocAtlas.Text

/-- How documentation comments are marked: from `/**` to `*/`, from `/*!` to `*/`, or from `///` to
the end of the line. -/
inductive Style where
  | doc
  | bang
  | slashes
deriving DecidableEq

namespace Style

/-- The characters that open a block. -/
def opening : Style → List Char
  | doc => ['/', '*', '*']
  | bang => ['/', '*', '!']
  | slashes => ['/', '/', '/']

/-- What belongs to a block after its opening, and what follows the block. -/
def body? (style : Style) (s : List Char) : Option (List Char × List Char) :=
  match style with
  | slashes => some (s.takeWhile (· != '\n'), s.dropWhile (· != '\n'))
  | _ => (cut? ['*', '/'] s).map fun (inside, rest) => (inside ++ ['*', '/'], rest)

/-- The block at the start of a text, and what follows it. -/
def block? (style : Style) (s : List Char) : Option (List Char × List Char) :=
  match stripPrefix? style.opening s with
  | none => none
  | some rest => (style.body? rest).map fun (inside, rest) => (style.opening ++ inside, rest)

/-- What follows the body of a block is no longer than the text that was read. -/
theorem body?_length {style : Style} {s inside rest : List Char}
    (h : style.body? s = some (inside, rest)) : rest.length ≤ s.length := by
  have hcut : ∀ {inside rest : List Char}, (cut? ['*', '/'] s).map
      (fun (inside, rest) => (inside ++ ['*', '/'], rest)) = some (inside, rest) →
      rest.length ≤ s.length := by
    intro inside rest h
    obtain ⟨⟨_, _⟩, hcut, heq⟩ := Option.map_eq_some_iff.mp h
    simp only [Prod.mk.injEq] at heq
    have := cut?_length hcut
    rw [← heq.2]
    omega
  cases style with
  | doc => exact hcut h
  | bang => exact hcut h
  | slashes =>
    simp only [body?, Option.some.injEq, Prod.mk.injEq] at h
    rw [← h.2]
    exact (List.dropWhile_suffix _).length_le

/-- What follows a block is shorter than the text that was read. -/
theorem block?_length {style : Style} {s block rest : List Char}
    (h : style.block? s = some (block, rest)) : rest.length < s.length := by
  unfold block? at h
  split at h
  · contradiction
  · next tail htail =>
    obtain ⟨⟨inside, after⟩, hbody, heq⟩ := Option.map_eq_some_iff.mp h
    simp only [Prod.mk.injEq] at heq
    have hle := body?_length hbody
    have happend := congrArg List.length (stripPrefix?_eq_some_iff.mp htail)
    have hopening : style.opening.length = 3 := by cases style <;> rfl
    rw [List.length_append] at happend
    rw [← heq.2]
    omega

/-- The blocks of a text in source order. -/
def blocks (style : Style) : List Char → List (List Char)
  | [] => []
  | c :: rest =>
    match _h : style.block? (c :: rest) with
    | some (block, after) => block :: style.blocks after
    | none => style.blocks rest
termination_by s => s.length
decreasing_by
  · exact block?_length _h
  · exact Nat.lt_succ_self _

/-- The block at the start of a text is its first one. -/
theorem blocks_of_block?_eq_some {style : Style} {c : Char} {rest block after : List Char}
    (h : style.block? (c :: rest) = some (block, after)) :
    style.blocks (c :: rest) = block :: style.blocks after := by
  rw [blocks]
  split
  · next heq =>
    obtain ⟨rfl, rfl⟩ := Prod.mk.inj (Option.some.inj (h.symm.trans heq))
    rfl
  · next heq => exact absurd (h.symm.trans heq) (by simp)

/-- A character at which no block begins is passed over. -/
theorem blocks_of_block?_eq_none {style : Style} {c : Char} {rest : List Char}
    (h : style.block? (c :: rest) = none) : style.blocks (c :: rest) = style.blocks rest := by
  rw [blocks]
  split
  · next heq => exact absurd (h.symm.trans heq) (by simp)
  · rfl

end Style

end DocAtlas.Comment
