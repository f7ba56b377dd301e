import DocAtlas.Proofs.Json.Strings
import Mathlib.Data.List.Nodup

/-!
# Written values are read back

A plain value holds no numbers, no halves of surrogate pairs and no key twice. Its text is plain
ASCII, and reading the text gives the value back. The reader is bounded by the length of the text:
every value that it enters costs one character at least, so the bound is never reached.
-/

namespace DocAtlas

/-- A new name is put at the end. -/
theorem Keyed.put_of_notMem {κ α : Type} [DecidableEq κ] {name : κ} {found : List (κ × α)}
    (h : name ∉ found.map Prod.fst) (value : α) :
    Keyed.put name value found = found ++ [(name, value)] := by
  induction found with
  | nil => rfl
  | cons first rest ih =>
    rw [List.map_cons, List.mem_cons, not_or] at h
    rw [Keyed.put, if_neg (Ne.symm h.1), ih h.2, List.cons_append]

namespace Json

open DocAtlas.Text

/-- A value without numbers and loose strings, in whose objects every key stands once. -/
inductive Plain : Json → Prop
  | null : Plain .null
  | bool (value : Bool) : Plain (.bool value)
  | str (value : String) : Plain (.str value)
  | arr {items : List Json} (plain : ∀ item ∈ items, Plain item) : Plain (.arr items)
  | obj {members : List (String × Json)} (distinct : (members.map Prod.fst).Nodup)
      (plain : ∀ member ∈ members, Plain member.2) : Plain (.obj members)

/-! ## The text of a value -/

variable (depth : ℕ) (rest : List Char)

theorem chars_null : chars depth .null rest = "null".toList ++ rest :=
  rfl

theorem chars_true : chars depth (.bool true) rest = "true".toList ++ rest :=
  rfl

theorem chars_false : chars depth (.bool false) rest = "false".toList ++ rest :=
  rfl

theorem chars_str (s : String) : chars depth (.str s) rest = quoted s rest :=
  rfl

theorem chars_arr_nil : chars depth (.arr []) rest = '[' :: ']' :: rest :=
  rfl

theorem chars_arr_cons (item : Json) (items : List Json) :
    chars depth (.arr (item :: items)) rest =
      '[' :: newline (depth + 1) (chars (depth + 1) item (itemsTail depth items rest)) :=
  rfl

theorem chars_obj_nil : chars depth (.obj []) rest = '\x7b' :: '\x7d' :: rest :=
  rfl

theorem chars_obj_cons (key : String) (value : Json) (members : List (String × Json)) :
    chars depth (.obj ((key, value) :: members)) rest =
      '\x7b' :: newline (depth + 1) (quoted key (':' :: ' ' ::
        chars (depth + 1) value (membersTail depth members rest))) :=
  rfl

/-! ## Printed texts -/

/-- A string in quotes is printed. -/
theorem printed_quoted (s : String) {rest : List Char} (hrest : Printed rest) :
    Printed (quoted s rest) := by
  have hchars : Printed (s.toList.flatMap escapeChar) := by
    intro c hc
    obtain ⟨_, _, hescape⟩ := List.mem_flatMap.mp hc
    exact printed_escapeChar _ c hescape
  exact .cons (by decide) (hchars.append (.cons (by decide) hrest))

/-- The beginning of a line is printed. -/
theorem printed_newline (depth : ℕ) {rest : List Char} (hrest : Printed rest) :
    Printed (newline depth rest) := by
  have hspaces : Printed (List.replicate (2 * depth) ' ') := by
    intro c hc
    rw [List.eq_of_mem_replicate hc]
    decide
  exact .cons (by decide) (hspaces.append hrest)

/-- The text of a value adds nothing to what follows that is not printed. -/
def KeepsPrinted (value : Json) : Prop :=
  ∀ (depth : ℕ) {rest : List Char}, Printed rest → Printed (chars depth value rest)

/-- The items of an array after the first one are printed. -/
theorem printed_itemsTail {items : List Json} (hitems : ∀ item ∈ items, KeepsPrinted item) (depth : ℕ)
    {rest : List Char} (hrest : Printed rest) : Printed (itemsTail depth items rest) := by
  induction items with
  | nil =>
    rw [itemsTail]
    exact printed_newline depth (.cons (by decide) hrest)
  | cons item items ih =>
    rw [List.forall_mem_cons] at hitems
    rw [itemsTail]
    exact .cons (by decide) (printed_newline _ (hitems.1 _ (ih hitems.2)))

/-- The members of an object after the first one are printed. -/
theorem printed_membersTail {members : List (String × Json)}
    (hmembers : ∀ member ∈ members, KeepsPrinted member.2) (depth : ℕ) {rest : List Char}
    (hrest : Printed rest) : Printed (membersTail depth members rest) := by
  induction members with
  | nil =>
    rw [membersTail]
    exact printed_newline depth (.cons (by decide) hrest)
  | cons member members ih =>
    obtain ⟨key, value⟩ := member
    rw [List.forall_mem_cons] at hmembers
    rw [membersTail]
    have hvalue := hmembers.1 (depth + 1) (ih hmembers.2)
    have hcolon := Printed.cons (c := ':') (by decide) (.cons (c := ' ') (by decide) hvalue)
    exact .cons (by decide) (printed_newline _ (printed_quoted key hcolon))

/-- The text of a plain value is printed. -/
theorem Plain.keepsPrinted {value : Json} (h : Plain value) : KeepsPrinted value := by
  induction h with
  | null =>
    intro depth rest hrest
    exact Printed.append (s := "null".toList) (by decide) hrest
  | bool value =>
    intro depth rest hrest
    cases value with
    | false => exact Printed.append (s := "false".toList) (by decide) hrest
    | true => exact Printed.append (s := "true".toList) (by decide) hrest
  | str value =>
    intro depth rest hrest
    exact printed_quoted value hrest
  | @arr items _ ih =>
    intro depth rest hrest
    cases items with
    | nil =>
      rw [chars_arr_nil]
      exact .cons (by decide) (.cons (by decide) hrest)
    | cons item items =>
      -- But for the opening bracket the items are written as if they came after another one.
      have htail := printed_itemsTail ih depth hrest
      rw [itemsTail] at htail
      rw [chars_arr_cons]
      exact .cons (by decide) (List.forall_mem_cons.mp htail).2
  | @obj members _ _ ih =>
    intro depth rest hrest
    cases members with
    | nil =>
      rw [chars_obj_nil]
      exact .cons (by decide) (.cons (by decide) hrest)
    | cons member members =>
      obtain ⟨key, value⟩ := member
      have htail := printed_membersTail ih depth hrest
      rw [membersTail] at htail
      rw [chars_obj_cons]
      exact .cons (by decide) (List.forall_mem_cons.mp htail).2

/-! ## Reading back -/

/-- The text of a value is not empty and put before what follows it. -/
def Grows (value : Json) : Prop :=
  ∀ (depth : ℕ) (rest : List Char), rest.length < (chars depth value rest).length

/-- The items of an array after the first one end with a bracket at least. -/
theorem length_lt_itemsTail {items : List Json} (hitems : ∀ item ∈ items, Grows item) :
    rest.length < (itemsTail depth items rest).length := by
  induction items with
  | nil =>
    simp only [itemsTail, newline, List.length_cons, List.length_append]
    omega
  | cons item items ih =>
    rw [List.forall_mem_cons] at hitems
    have hitem := hitems.1 (depth + 1) (itemsTail depth items rest)
    have htail := ih hitems.2
    simp only [itemsTail, newline, List.length_cons, List.length_append]
    omega

/-- The members of an object after the first one end with a brace at least. -/
theorem length_lt_membersTail {members : List (String × Json)}
    (hmembers : ∀ member ∈ members, Grows member.2) :
    rest.length < (membersTail depth members rest).length := by
  induction members with
  | nil =>
    simp only [membersTail, newline, List.length_cons, List.length_append]
    omega
  | cons member members ih =>
    obtain ⟨key, value⟩ := member
    rw [List.forall_mem_cons] at hmembers
    have hvalue : (membersTail depth members rest).length <
        (chars (depth + 1) value (membersTail depth members rest)).length := hmembers.1 _ _
    have htail := ih hmembers.2
    simp only [membersTail, newline, quoted, List.length_cons, List.length_append]
    omega

/-- The text of a plain value is put before what follows it. -/
theorem Plain.grows {value : Json} (h : Plain value) : Grows value := by
  induction h with
  | null =>
    intro depth rest
    have hword : "null".toList.length = 4 := rfl
    rw [chars_null, List.length_append, hword]
    omega
  | bool value =>
    intro depth rest
    cases value with
    | false =>
      have hword : "false".toList.length = 5 := rfl
      rw [chars_false, List.length_append, hword]
      omega
    | true =>
      have hword : "true".toList.length = 4 := rfl
      rw [chars_true, List.length_append, hword]
      omega
  | str value =>
    intro depth rest
    simp only [chars_str, quoted, List.length_cons, List.length_append]
    omega
  | @arr items _ ih =>
    intro depth rest
    cases items with
    | nil =>
      simp only [chars_arr_nil, List.length_cons]
      omega
    | cons item items =>
      have htail := length_lt_itemsTail depth rest ih
      rw [itemsTail] at htail
      rw [chars_arr_cons]
      simp only [List.length_cons] at htail ⊢
      omega
  | @obj members _ _ ih =>
    intro depth rest
    cases members with
    | nil =>
      simp only [chars_obj_nil, List.length_cons]
      omega
    | cons member members =>
      obtain ⟨key, value⟩ := member
      have htail := length_lt_membersTail depth rest ih
      rw [membersTail] at htail
      rw [chars_obj_cons]
      simp only [List.length_cons] at htail ⊢
      omega

/-- The blanks of a new line are skipped. -/
theorem skipBlanks_newline (s : List Char) : skipBlanks (newline depth s) = skipBlanks s := by
  have hspaces (n : ℕ) : skipBlanks (List.replicate n ' ' ++ s) = skipBlanks s := by
    induction n with
    | zero => rfl
    | succ n ih =>
      rw [List.replicate_succ, List.cons_append]
      exact ih
  exact hspaces (2 * depth)

/-- A plain value begins neither with a blank nor with the end of an array. -/
theorem Plain.exists_first {value : Json} (h : Plain value) :
    ∃ c tail, chars depth value rest = c :: tail ∧ c ∉ [' ', '\t', '\n', '\r', ']'] := by
  cases h with
  | null => exact ⟨'n', _, rfl, by decide⟩
  | bool value =>
    cases value with
    | false => exact ⟨'f', _, rfl, by decide⟩
    | true => exact ⟨'t', _, rfl, by decide⟩
  | str value => exact ⟨'\x22', _, rfl, by decide⟩
  | @arr items => cases items <;> exact ⟨'[', _, rfl, by decide⟩
  | @obj members => cases members <;> exact ⟨'\x7b', _, rfl, by decide⟩

/-- The text of a plain value is not taken for blanks or for the end of an array. -/
theorem Plain.skipBlanks_chars {value : Json} (h : Plain value) :
    skipBlanks (chars depth value rest) = chars depth value rest ∧
      (chars depth value rest).head? ≠ some ']' := by
  obtain ⟨c, tail, htail, hc⟩ := h.exists_first depth rest
  simp only [List.mem_cons, List.not_mem_nil, or_false, not_or] at hc
  obtain ⟨hspace, htab, hnewline, hreturn, hbracket⟩ := hc
  rw [htail]
  constructor
  · simp [skipBlanks, hspace, htab, hnewline, hreturn]
  · simpa using hbracket

variable {rest} {bound : ℕ} {s : List Char}

/-- A string in quotes is read back. -/
theorem readValue_quoted (text : String) :
    readValue (bound + 1) (quoted text rest) = .ok (.str text, rest) := by
  rw [quoted, readValue, if_pos rfl, readString_flatMap_escapeChar, ← ofLoose_ofString]
  rfl

/-- An array is read with its items. -/
theorem readValue_arr {items : List Json} (hhead : (skipBlanks s).head? ≠ some ']')
    (hitems : readItems bound (skipBlanks s) = .ok (items, rest)) :
    readValue (bound + 1) ('[' :: s) = .ok (.arr items, rest) := by
  rw [readValue, if_neg (by decide), if_pos rfl]
  split
  · next heq => simp [heq] at hhead
  · rw [hitems]
    rfl

/-- An object is read with its members. -/
theorem readValue_obj {members : List (String × Json)}
    (hhead : (skipBlanks s).head? ≠ some '\x7d')
    (hmembers : readMembers bound [] (skipBlanks s) = .ok (members, rest)) :
    readValue (bound + 1) ('\x7b' :: s) = .ok (.obj members, rest) := by
  rw [readValue, if_neg (by decide), if_neg (by decide), if_pos rfl]
  split
  · next heq => simp [heq] at hhead
  · rw [hmembers]
    rfl

variable {value : Json} {after : List Char}

/-- The last item of an array is read. -/
theorem readItems_last (hvalue : readValue bound s = .ok (value, after))
    (hafter : skipBlanks after = ']' :: rest) :
    readItems (bound + 1) s = .ok ([value], rest) := by
  simp only [readItems, hvalue, bind, Except.bind, hafter]

/-- An item of an array is read with the items behind it. -/
theorem readItems_cons {items : List Json} {next : List Char}
    (hvalue : readValue bound s = .ok (value, after)) (hafter : skipBlanks after = ',' :: next)
    (hitems : readItems bound (skipBlanks next) = .ok (items, rest)) :
    readItems (bound + 1) s = .ok (value :: items, rest) := by
  simp only [readItems, hvalue, bind, Except.bind, hafter, hitems]

/-- A key is read back. -/
theorem mended_map_char (key : String) : (LooseString.mk (key.toList.map .char)).mended = key := by
  rw [LooseString.mended, List.map_map]
  exact (congrArg String.ofList (List.map_id key.toList)).trans String.ofList_toList

/-- The last member of an object is read. -/
theorem readMembers_last (known : List (String × Json)) (key : String)
    (hvalue : readValue bound (skipBlanks s) = .ok (value, after))
    (hafter : skipBlanks after = '\x7d' :: rest) :
    readMembers (bound + 1) known (quoted key (':' :: s)) =
      .ok (Keyed.put key value known, rest) := by
  have hcolon : skipBlanks (':' :: s) = ':' :: s := rfl
  simp only [quoted, readMembers, readString_flatMap_escapeChar, bind, Except.bind, hcolon, hvalue,
    hafter, mended_map_char]

/-- A member of an object is read with the members behind it. -/
theorem readMembers_cons (known : List (String × Json)) (key : String)
    {members : List (String × Json)} {next : List Char}
    (hvalue : readValue bound (skipBlanks s) = .ok (value, after))
    (hafter : skipBlanks after = ',' :: next)
    (hmembers : readMembers bound (Keyed.put key value known) (skipBlanks next) =
      .ok (members, rest)) :
    readMembers (bound + 1) known (quoted key (':' :: s)) = .ok (members, rest) := by
  have hcolon : skipBlanks (':' :: s) = ':' :: s := rfl
  simp only [quoted, readMembers, readString_flatMap_escapeChar, bind, Except.bind, hcolon, hvalue,
    hafter, mended_map_char, hmembers]

/-- The text of a value is read back, if the bound is not smaller than the text. -/
def ReadsBack (value : Json) : Prop :=
  ∀ (depth bound : ℕ) (rest : List Char), (chars depth value rest).length ≤ bound + rest.length →
    readValue bound (chars depth value rest) = .ok (value, rest)

/-- A bound for a value and what closes it is a bound for the value, with one to spare. -/
theorem Plain.exists_bound {value : Json} (h : Plain value) {tail : List Char}
    (htail : rest.length < tail.length)
    (hbound : (chars depth value tail).length ≤ bound + rest.length) :
    ∃ smaller, bound = smaller + 1 ∧ (chars depth value tail).length ≤ smaller + tail.length ∧
      tail.length ≤ smaller + rest.length := by
  have hgrows := h.grows depth tail
  exact ⟨bound - 1, by omega, by omega, by omega⟩

/-- In a list with distinct keys a key is not among those before it. -/
theorem notMem_of_nodup {known members : List (String × Json)} {key : String}
    (h : ((known ++ (key, value) :: members).map Prod.fst).Nodup) : key ∉ known.map Prod.fst := by
  intro hkey
  rw [List.map_append, List.nodup_append] at h
  exact h.2.2 key hkey key List.mem_cons_self rfl

/-- The items of an array are read back. -/
theorem readItems_itemsTail {item : Json} {items : List Json}
    (hplain : ∀ other ∈ item :: items, Plain other)
    (hread : ∀ other ∈ item :: items, ReadsBack other)
    (hbound : (chars (depth + 1) item (itemsTail depth items rest)).length ≤ bound + rest.length) :
    readItems bound (chars (depth + 1) item (itemsTail depth items rest)) =
      .ok (item :: items, rest) := by
  -- Each round costs one of the bound and more than one character of the text.
  induction items generalizing item bound with
  | nil =>
    rw [List.forall_mem_singleton] at hplain hread
    have htail : rest.length < (itemsTail depth [] rest).length :=
      length_lt_itemsTail depth rest (by simp)
    obtain ⟨bound, rfl, hitem, _⟩ := hplain.exists_bound _ htail hbound
    refine readItems_last (hread _ _ _ hitem) ?_
    rw [itemsTail, skipBlanks_newline]
    rfl
  | cons next items ih =>
    rw [List.forall_mem_cons] at hplain hread
    have htail := length_lt_itemsTail depth rest fun other hother => (hplain.2 other hother).grows
    obtain ⟨bound, rfl, hitem, hitems⟩ := hplain.1.exists_bound _ htail hbound
    have hnext := hplain.2 next List.mem_cons_self
    refine readItems_cons (hread.1 _ _ _ hitem) (by rw [itemsTail]; rfl) ?_
    rw [skipBlanks_newline, (hnext.skipBlanks_chars _ _).1]
    refine ih hplain.2 hread.2 ?_
    simp only [itemsTail, newline, List.length_cons, List.length_append] at hitems
    omega

/-- The members of an object are read back, behind those that are known. -/
theorem readMembers_membersTail {known : List (String × Json)} {key : String} {value : Json}
    {members : List (String × Json)}
    (hdistinct : ((known ++ (key, value) :: members).map Prod.fst).Nodup)
    (hplain : ∀ member ∈ (key, value) :: members, Plain member.2)
    (hread : ∀ member ∈ (key, value) :: members, ReadsBack member.2)
    (hbound : (chars (depth + 1) value (membersTail depth members rest)).length ≤
      bound + rest.length) :
    readMembers bound known (quoted key (':' :: ' ' ::
      chars (depth + 1) value (membersTail depth members rest))) =
      .ok (known ++ (key, value) :: members, rest) := by
  have hskip {value : Json} (hplain : Plain value) (tail : List Char) :
      skipBlanks (' ' :: chars (depth + 1) value tail) = chars (depth + 1) value tail :=
    (hplain.skipBlanks_chars _ _).1
  -- The keys that are known grow round by round, and stay apart from those to come.
  induction members generalizing known key value bound with
  | nil =>
    rw [List.forall_mem_singleton] at hplain hread
    have htail : rest.length < (membersTail depth [] rest).length :=
      length_lt_membersTail depth rest (by simp)
    obtain ⟨bound, rfl, hmember, _⟩ := hplain.exists_bound _ htail hbound
    have hvalue := hread _ _ _ hmember
    rw [← hskip hplain] at hvalue
    rw [← Keyed.put_of_notMem (notMem_of_nodup hdistinct)]
    refine readMembers_last known key hvalue ?_
    rw [membersTail, skipBlanks_newline]
    rfl
  | cons next members ih =>
    obtain ⟨nextKey, nextValue⟩ := next
    rw [List.forall_mem_cons] at hplain hread
    have htail := length_lt_membersTail depth rest fun member hmember =>
      (hplain.2 member hmember).grows
    obtain ⟨bound, rfl, hmember, hmembers⟩ := hplain.1.exists_bound _ htail hbound
    have hvalue := hread.1 _ _ _ hmember
    rw [← hskip hplain.1] at hvalue
    have hnew := notMem_of_nodup hdistinct
    rw [List.append_cons] at hdistinct ⊢
    refine readMembers_cons known key hvalue (by rw [membersTail]; rfl) ?_
    rw [Keyed.put_of_notMem hnew, skipBlanks_newline]
    refine ih hdistinct hplain.2 hread.2 ?_
    simp only [membersTail, newline, quoted, List.length_cons, List.length_append] at hmembers
    omega

/-- The text of a plain value is read back. -/
theorem Plain.readsBack {value : Json} (h : Plain value) : ReadsBack value := by
  have hsucc {value : Json} (h : Plain value) {depth bound : ℕ} {rest : List Char}
      (hbound : (chars depth value rest).length ≤ bound + rest.length) :
      ∃ smaller, bound = smaller + 1 := by
    have hgrows := h.grows depth rest
    exact ⟨bound - 1, by omega⟩
  induction h with
  | null =>
    intro depth bound rest hbound
    obtain ⟨bound, rfl⟩ := hsucc .null hbound
    rfl
  | bool value =>
    intro depth bound rest hbound
    obtain ⟨bound, rfl⟩ := hsucc (.bool value) hbound
    cases value <;> rfl
  | str value =>
    intro depth bound rest hbound
    obtain ⟨bound, rfl⟩ := hsucc (.str value) hbound
    exact readValue_quoted value
  | @arr items plain ih =>
    intro depth bound rest hbound
    obtain ⟨bound, rfl⟩ := hsucc (.arr plain) hbound
    cases items with
    | nil => rfl
    | cons item items =>
      have hskip := (plain item List.mem_cons_self).skipBlanks_chars (depth + 1)
        (itemsTail depth items rest)
      rw [chars_arr_cons] at hbound ⊢
      refine readValue_arr ?_ ?_
      · rw [skipBlanks_newline, hskip.1]
        exact hskip.2
      · rw [skipBlanks_newline, hskip.1]
        refine readItems_itemsTail depth plain ih ?_
        simp only [newline, List.length_cons, List.length_append] at hbound
        omega
  | @obj members distinct plain ih =>
    intro depth bound rest hbound
    obtain ⟨bound, rfl⟩ := hsucc (.obj distinct plain) hbound
    cases members with
    | nil => rfl
    | cons member members =>
      obtain ⟨key, value⟩ := member
      rw [chars_obj_cons] at hbound ⊢
      refine readValue_obj ?_ ?_
      · rw [skipBlanks_newline]
        exact ne_of_beq_false rfl
      · rw [skipBlanks_newline]
        have hdistinct : (([] ++ (key, value) :: members).map Prod.fst).Nodup := distinct
        refine readMembers_membersTail depth hdistinct plain ih ?_
        simp only [newline, quoted, List.length_cons, List.length_append] at hbound
        omega

/-- The text of a plain value is printed. -/
theorem Plain.printed_write {value : Json} (h : Plain value) : Printed value.write.toList := by
  rw [write, String.toList_ofList]
  exact h.keepsPrinted 0 (by decide)

/-- The text of a plain value is ASCII. -/
theorem Plain.ascii_write {value : Json} (h : Plain value) :
    ∀ c ∈ value.write.toList, c.toNat < 128 := by
  intro c hc
  rcases h.printed_write c hc with rfl | hprinted
  · decide
  · omega

example : write (.str "😀\x7f") = "\x22\\ud83d\\ude00\\u007f\x22" := by decide

/-- Reading the text of a plain value gives the value back. -/
theorem Plain.read_write {value : Json} (h : Plain value) : read value.write = .ok value := by
  have hread := h.readsBack 0 ((chars 0 value []).length + 1) [] (by simp)
  rw [read, write, String.toList_ofList, (h.skipBlanks_chars 0 []).1, hread]
  rfl

end Json

end DocAtlas
