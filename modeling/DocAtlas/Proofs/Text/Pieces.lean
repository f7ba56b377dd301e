import DocAtlas.Text.Search

/-!
# Splitting undoes joining

A text is its pieces joined by the separator, and pieces without separators come back unchanged
after joining. Splitting works on both sides of any separator by itself, so a text that is put
together around separators splits into the pieces of its parts.
-/

namespace DocAtlas.Text

variable {α : Type}

/-- Splitting never gives nothing. -/
theorem splitWhere_ne_nil (p : α → Bool) (s : List α) : splitWhere p s ≠ [] := by
  cases s with
  | nil => simp [splitWhere]
  | cons c rest =>
    rw [splitWhere]
    split
    · simp
    · split <;> simp

/-- Both sides of a separator are split by themselves. -/
theorem splitWhere_append_cons {p : α → Bool} {separator : α} (hseparator : p separator = true)
    (s t : List α) :
    splitWhere p (s ++ separator :: t) = splitWhere p s ++ splitWhere p t := by
  induction s with
  | nil => simp [splitWhere, hseparator]
  | cons c rest ih =>
    rw [List.cons_append, splitWhere, splitWhere, ih]
    split
    · rfl
    · cases h : splitWhere p rest with
      | nil => exact absurd h (splitWhere_ne_nil p rest)
      | cons piece pieces => rfl

/-- A text without separators is its only piece. -/
theorem splitWhere_of_forall {p : α → Bool} {s : List α} (h : ∀ c ∈ s, p c = false) :
    splitWhere p s = [s] := by
  induction s with
  | nil => rfl
  | cons c rest ih =>
    rw [List.forall_mem_cons] at h
    rw [splitWhere, if_neg (by simp [h.1]), ih h.2]

/-- A text that does not hold the separator is its only piece. -/
theorem splitWhere_of_not_mem {separator : Char} {s : List Char} (h : separator ∉ s) :
    splitWhere (· == separator) s = [s] := by
  apply splitWhere_of_forall
  intro c hc
  exact beq_false_of_ne fun heq => h (heq ▸ hc)

/-- A text is cut at the first separator that it holds. -/
theorem splitWhere_append_cons_of_not_mem {separator : Char} {s : List Char}
    (h : separator ∉ s) (t : List Char) :
    splitWhere (· == separator) (s ++ separator :: t) = s :: splitWhere (· == separator) t := by
  rw [splitWhere_append_cons (by simp), splitWhere_of_not_mem h, List.singleton_append]

/-- A text without separators goes to the first piece of what follows it. -/
theorem splitWhere_append_of_not_mem {separator : Char} {s t first : List Char}
    {rest : List (List Char)} (h : separator ∉ s)
    (ht : splitWhere (· == separator) t = first :: rest) :
    splitWhere (· == separator) (s ++ t) = (s ++ first) :: rest := by
  induction s with
  | nil => exact ht
  | cons c s ih =>
    rw [List.mem_cons, not_or] at h
    have hc : (c == separator) = false := beq_false_of_ne (Ne.symm h.1)
    rw [List.cons_append, splitWhere, if_neg (by simp [hc]), ih h.2]
    rfl

/-- Pieces hold no separators. -/
theorem forall_mem_splitWhere (p : α → Bool) (s : List α) :
    ∀ piece ∈ splitWhere p s, ∀ c ∈ piece, p c = false := by
  induction s with
  | nil => simp [splitWhere]
  | cons c rest ih =>
    rw [splitWhere]
    split
    · rw [List.forall_mem_cons]
      exact ⟨by simp, ih⟩
    · next hc =>
      cases h : splitWhere p rest with
      | nil => simpa using hc
      | cons piece pieces =>
        rw [h, List.forall_mem_cons] at ih
        rw [List.forall_mem_cons, List.forall_mem_cons]
        exact ⟨⟨by simpa using hc, ih.1⟩, ih.2⟩

/-- A letter of a text is a separator or stands in a piece. -/
theorem exists_mem_splitWhere {p : α → Bool} {s : List α} {c : α} (h : c ∈ s) :
    p c = true ∨ ∃ piece ∈ splitWhere p s, c ∈ piece := by
  by_cases hc : p c = true
  · exact Or.inl hc
  · right
    obtain ⟨front, back, rfl⟩ := List.append_of_mem h
    clear h
    induction front with
    | nil =>
      rw [List.nil_append, splitWhere, if_neg hc]
      split <;> simp
    | cons d front ih =>
      obtain ⟨piece, hpiece, hmem⟩ := ih
      rw [List.cons_append, splitWhere]
      split
      · exact ⟨piece, List.mem_cons_of_mem _ hpiece, hmem⟩
      · cases hsplit : splitWhere p (front ++ c :: back) with
        | nil => exact absurd hsplit (splitWhere_ne_nil _ _)
        | cons first rest =>
          rw [hsplit] at hpiece
          rcases List.mem_cons.mp hpiece with rfl | hlater
          · exact ⟨d :: piece, List.mem_cons_self, List.mem_cons_of_mem d hmem⟩
          · exact ⟨piece, List.mem_cons_of_mem _ hlater, hmem⟩

/-- Joining is putting the separator between the pieces. -/
theorem joinWith_eq_intercalate (separator : List Char) (pieces : List (List Char)) :
    joinWith separator pieces = separator.intercalate pieces := by
  induction pieces with
  | nil => rfl
  | cons first rest ih =>
    cases rest with
    | nil => simp [joinWith]
    | cons second others => rw [joinWith, ih, List.intercalate_cons_cons, List.append_assoc]

/-- Pieces without separators come back after joining. -/
theorem splitWhere_joinWith {p : Char → Bool} {separator : Char} (hseparator : p separator = true)
    {pieces : List (List Char)} (hne : pieces ≠ [])
    (hpieces : ∀ piece ∈ pieces, ∀ c ∈ piece, p c = false) :
    splitWhere p (joinWith [separator] pieces) = pieces := by
  induction pieces with
  | nil => exact absurd rfl hne
  | cons first rest ih =>
    rw [List.forall_mem_cons] at hpieces
    cases rest with
    | nil => exact splitWhere_of_forall hpieces.1
    | cons second others =>
      rw [joinWith, List.append_assoc, List.singleton_append, splitWhere_append_cons hseparator,
        splitWhere_of_forall hpieces.1, ih (List.cons_ne_nil _ _) hpieces.2]
      rfl

/-- A text is its pieces joined by the separator. -/
theorem joinWith_splitWhere (separator : Char) (s : List Char) :
    joinWith [separator] (splitWhere (· == separator) s) = s := by
  induction s with
  | nil => rfl
  | cons c rest ih =>
    rw [splitWhere]
    cases h : splitWhere (· == separator) rest with
    | nil => exact absurd h (splitWhere_ne_nil _ rest)
    | cons piece pieces =>
      rw [h] at ih
      split
      · next hc =>
        rw [joinWith, ih, beq_iff_eq.mp hc]
        rfl
      · cases pieces with
        | nil =>
          rw [joinWith] at ih ⊢
          rw [ih]
        | cons next others =>
          rw [joinWith] at ih ⊢
          rw [← ih]
          rfl

/-- Joined pieces begin with the first piece and end with the last one. -/
theorem exists_ends_of_joinWith (separator : List Char) {pieces : List (List Char)}
    (hne : pieces ≠ []) :
    (∃ first ∈ pieces, ∃ after, joinWith separator pieces = first ++ after) ∧
      ∃ last ∈ pieces, ∃ before, joinWith separator pieces = before ++ last := by
  induction pieces with
  | nil => exact absurd rfl hne
  | cons piece rest ih =>
    cases rest with
    | nil =>
      refine ⟨⟨piece, List.mem_cons_self, [], ?_⟩, piece, List.mem_cons_self, [], ?_⟩
      · rw [joinWith, List.append_nil]
      · rw [joinWith, List.nil_append]
    | cons next others =>
      obtain ⟨_, last, hlast, before, hbefore⟩ := ih (List.cons_ne_nil _ _)
      constructor
      · exact ⟨piece, List.mem_cons_self, _, by rw [joinWith, List.append_assoc]⟩
      · refine ⟨last, List.mem_cons_of_mem _ hlast, piece ++ separator ++ before, ?_⟩
        rw [joinWith, hbefore, List.append_assoc, List.append_assoc, List.append_assoc]

/-- Pieces between a first and a last one are joined behind a separator each. -/
theorem joinWith_cons_append (separator first : List Char) (pieces : List (List Char))
    (last : List Char) :
    joinWith separator (first :: pieces ++ [last]) =
      first ++ pieces.flatMap (separator ++ ·) ++ separator ++ last := by
  induction pieces generalizing first with
  | nil => simp [joinWith]
  | cons piece rest ih =>
    rw [List.cons_append, List.cons_append, joinWith, ← List.cons_append, ih, List.flatMap_cons]
    simp only [List.append_assoc]

/-- Two lists of pieces, neither of them empty, are joined with a separator between them. -/
theorem joinWith_append (separator : List Char) {pieces others : List (List Char)}
    (hpieces : pieces ≠ []) (hothers : others ≠ []) :
    joinWith separator (pieces ++ others) =
      joinWith separator pieces ++ separator ++ joinWith separator others := by
  induction pieces with
  | nil => exact absurd rfl hpieces
  | cons first rest ih =>
    cases rest with
    | nil =>
      obtain ⟨second, rest, rfl⟩ := List.exists_cons_of_ne_nil hothers
      rfl
    | cons second rest =>
      rw [List.cons_append, List.cons_append, joinWith, ← List.cons_append,
        ih (List.cons_ne_nil _ _), joinWith]
      simp only [List.append_assoc]

/-- Texts with the same pieces are the same. -/
theorem splitWhere_injective (separator : Char) :
    Function.Injective (splitWhere (· == separator)) := by
  intro s t h
  rw [← joinWith_splitWhere separator s, h, joinWith_splitWhere]

end DocAtlas.Text
