/-!
# Searching and cutting texts

Cutting at the first occurrence of a separator, splitting at every separator character and joining
again.
-/

namespace DocAtlas.Text

/-- What follows a given beginning of a text. -/
def stripPrefix? : List Char → List Char → Option (List Char)
  | [], s => some s
  | _ :: _, [] => none
  | a :: beginning, b :: s => if a = b then stripPrefix? beginning s else none

/-- A text has a given beginning exactly if it is that beginning followed by something. -/
theorem stripPrefix?_eq_some_iff {beginning s rest : List Char} :
    stripPrefix? beginning s = some rest ↔ s = beginning ++ rest := by
  induction beginning generalizing s with
  | nil => simp [stripPrefix?]
  | cons a beginning ih =>
    cases s with
    | nil => simp [stripPrefix?]
    | cons b s =>
      by_cases h : a = b
      · subst h
        simp [stripPrefix?, ih]
      · simp [stripPrefix?, h, Ne.symm h]

/-- What stands before and after the first occurrence of a separator. -/
def cut? (separator : List Char) : List Char → Option (List Char × List Char)
  | [] => if separator.isEmpty then some ([], []) else none
  | c :: rest =>
    match stripPrefix? separator (c :: rest) with
    | some after => some ([], after)
    | none => (cut? separator rest).map fun (before, after) => (c :: before, after)

/-- Cutting shortens the text by what stands before the cut and the separator. -/
theorem cut?_length {separator s before after : List Char}
    (h : cut? separator s = some (before, after)) :
    s.length = before.length + separator.length + after.length := by
  induction s generalizing before with
  | nil =>
    simp only [cut?] at h
    split at h
    · simp only [Option.some.injEq, Prod.mk.injEq] at h
      obtain ⟨rfl, rfl⟩ := h
      simp_all
    · contradiction
  | cons c rest ih =>
    simp only [cut?] at h
    split at h
    · next tail htail =>
      simp only [Option.some.injEq, Prod.mk.injEq] at h
      obtain ⟨rfl, rfl⟩ := h
      rw [stripPrefix?_eq_some_iff.mp htail]
      simp
    · obtain ⟨⟨b, a⟩, hcut, heq⟩ := Option.map_eq_some_iff.mp h
      simp only [Prod.mk.injEq] at heq
      obtain ⟨rfl, rfl⟩ := heq
      have := ih hcut
      simp only [List.length_cons]
      omega

/-- Does a text occur inside another one? -/
def occursIn (part s : List Char) : Bool :=
  (cut? part s).isSome

/-- The text before the first occurrence of a separator, all of it if there is none. -/
def before (separator s : List Char) : List Char :=
  match cut? separator s with
  | some (head, _) => head
  | none => s

/-- The text after the first occurrence of a separator, empty if there is none. -/
def after (separator s : List Char) : List Char :=
  match cut? separator s with
  | some (_, tail) => tail
  | none => []

/-- The pieces between the letters of a class, empty ones included. -/
def splitWhere {α : Type} (p : α → Bool) : List α → List (List α)
  | [] => [[]]
  | c :: rest =>
    if p c then [] :: splitWhere p rest
    else
      match splitWhere p rest with
      | [] => [[c]]
      | piece :: pieces => (c :: piece) :: pieces

/-- The pieces of a text between its newlines. -/
def lines (s : List Char) : List (List Char) :=
  splitWhere (· == '\n') s

/-- Texts one after the other, with a separator between them. -/
def joinWith (separator : List Char) : List (List Char) → List Char
  | [] => []
  | [s] => s
  | s :: t :: rest => s ++ separator ++ joinWith separator (t :: rest)

/-- The text with `\r\n` and lone `\r` turned into `\n`. -/
def unifyNewlines : List Char → List Char
  | [] => []
  | '\r' :: '\n' :: rest => '\n' :: unifyNewlines rest
  | c :: rest => (if c = '\r' then '\n' else c) :: unifyNewlines rest

end DocAtlas.Text
