import DocAtlas.Options.Basic
import Mathlib.Algebra.Order.Field.Rat
import Mathlib.Data.List.Lex
import Mathlib.Tactic.FieldSimp
import Mathlib.Tactic.Positivity

/-!
# What checks accept and where they fail

A check is compared with two relations: what a JSON value stands for, and the places inside the value
at which it stands for nothing. A check settles them if it passes with exactly what the value stands
for, and if its problems name exactly these places, each once and in order. The checks of single
values do so: each of them has at most one problem, with the value as a whole.
-/

namespace DocAtlas.Options

open DocAtlas.Text

variable {α β : Type}

/-! ## Places -/

/-- The names of the options in order. -/
def optionNames : List String :=
  ["target_path", "ignore_paths", "file_types", "output_path", "output_name", "output_formats",
    "title", "log_level", "strict", "html"]

/-- The names of the page settings in order. -/
def pageNames : List String :=
  ["meta", "scripts", "styles", "body_classes"]

/-- The rank of a step among the steps from the same place. -/
def Step.rank : Step → Nat
  | .key name => (optionNames ++ pageNames).idxOf name
  | .index position => position

/-- One place comes before another: at the first step that differs, or because it lies above. -/
def Before (a b : List Step) : Prop :=
  a.map Step.rank < b.map Step.rank

/-- Problems name exactly the places at which something fails, each once and in order. -/
structure Lists (fails : List Step → Prop) (problems : List Problem) : Prop where
  mem_iff : ∀ location, location ∈ problems.map Problem.location ↔ fails location
  ordered : problems.Pairwise fun a b => Before a.location b.location

/-- A place below a step. -/
def Below (step : Step) (fails : List Step → Prop) (location : List Step) : Prop :=
  ∃ rest, location = step :: rest ∧ fails rest

/-- A problem moved below a step. -/
def Problem.under (step : Step) (problem : Problem) : Problem :=
  { problem with location := step :: problem.location }

namespace Lists

variable {fails others : List Step → Prop} {problems more : List Problem}

/-- The same places in other words. -/
theorem congr (h : Lists fails problems) (hfails : ∀ location, fails location ↔ others location) :
    Lists others problems :=
  ⟨fun location => (h.mem_iff location).trans (hfails location), h.ordered⟩

/-- Where nothing fails there are no problems. -/
theorem nil (h : ∀ location, ¬fails location) : Lists fails [] :=
  ⟨fun location => by simp [h location], .nil⟩

/-- What fails as a whole is one problem. -/
theorem whole (fault : Fault) (h : ∀ location, fails location ↔ location = []) :
    Lists fails [{ location := [], fault }] :=
  ⟨fun location => by simp [h location], List.pairwise_singleton _ _⟩

/-- Problems are moved together with the places. -/
theorem under (h : Lists fails problems) (step : Step) :
    Lists (Below step fails) (problems.map (Problem.under step)) := by
  constructor
  · intro location
    rw [List.map_map, List.mem_map]
    constructor
    · intro hmem
      obtain ⟨problem, hproblem, rfl⟩ := hmem
      exact ⟨problem.location, rfl, (h.mem_iff _).mp (List.mem_map_of_mem hproblem)⟩
    · intro hbelow
      obtain ⟨rest, rfl, hrest⟩ := hbelow
      obtain ⟨problem, hproblem, rfl⟩ := List.mem_map.mp ((h.mem_iff rest).mpr hrest)
      exact ⟨problem, hproblem, rfl⟩
  · rw [List.pairwise_map]
    exact h.ordered.imp fun hbefore => List.cons_lt_cons_iff.mpr (Or.inr ⟨rfl, hbefore⟩)

/-- Problems are listed one group after the other if the places of the groups are in order. -/
theorem append (h : Lists fails problems) (hmore : Lists others more)
    (hbefore : ∀ a b, fails a → others b → Before a b) :
    Lists (fun location => fails location ∨ others location) (problems ++ more) := by
  constructor
  · intro location
    rw [List.map_append, List.mem_append, h.mem_iff, hmore.mem_iff]
  · refine List.pairwise_append.mpr ⟨h.ordered, hmore.ordered, fun a ha b hb => ?_⟩
    exact hbefore _ _ ((h.mem_iff _).mp (List.mem_map_of_mem ha))
      ((hmore.mem_iff _).mp (List.mem_map_of_mem hb))

end Lists

/-- Places below steps are in order if the steps are. -/
theorem before_of_rank_lt {first second : Step} (h : first.rank < second.rank)
    (a b : List Step) : Before (first :: a) (second :: b) :=
  List.cons_lt_cons_iff.mpr (Or.inl h)

/-! ## Checked values -/

namespace Checked

/-- A function does not change what is wrong. -/
@[simp]
theorem problems_map (f : α → β) (checked : Checked α) :
    (checked.map f).problems = checked.problems := by
  cases checked <;> rfl

/-- The problems of a function come before those of its argument. -/
@[simp]
theorem problems_apply (f : Checked (α → β)) (checked : Checked α) :
    (f.apply checked).problems = f.problems ++ checked.problems := by
  cases f <;> cases checked <;> rfl

/-- Problems are moved below a step. -/
@[simp]
theorem problems_under (step : Step) (checked : Checked α) :
    (checked.under step).problems = checked.problems.map (Problem.under step) := by
  cases checked <;> rfl

/-- A function passes with what it makes of the value. -/
theorem map_eq_pass_iff {f : α → β} {checked : Checked α} {b : β} :
    checked.map f = .pass b ↔ ∃ a, checked = .pass a ∧ f a = b := by
  cases checked <;> simp [map]

/-- An application passes if both sides do. -/
theorem apply_eq_pass_iff {f : Checked (α → β)} {checked : Checked α} {b : β} :
    f.apply checked = .pass b ↔ ∃ g a, f = .pass g ∧ checked = .pass a ∧ g a = b := by
  cases f <;> cases checked <;> simp [apply]

/-- A value passes below a step as it does above. -/
theorem under_eq_pass_iff {step : Step} {checked : Checked α} {a : α} :
    checked.under step = .pass a ↔ checked = .pass a := by
  cases checked <;> simp [under]

/-- Something that does not pass has a problem. -/
def Sound (checked : Checked α) : Prop :=
  checked ≠ .fail []

/-- A function of something sound is sound. -/
theorem Sound.map {checked : Checked α} (h : checked.Sound) (f : α → β) : (checked.map f).Sound := by
  cases checked with
  | pass a => simp [Sound, Checked.map]
  | fail problems => simpa [Sound, Checked.map] using h

/-- An application of something sound to something sound is sound. -/
theorem Sound.apply {f : Checked (α → β)} {checked : Checked α} (hf : f.Sound) (h : checked.Sound) :
    (f.apply checked).Sound := by
  cases f <;> cases checked <;> simp_all [Sound, Checked.apply, problems]

/-- Something sound stays so below a step. -/
theorem Sound.under {checked : Checked α} (h : checked.Sound) (step : Step) :
    (checked.under step).Sound := by
  cases checked with
  | pass a => simp [Sound, Checked.under]
  | fail problems => simpa [Sound, Checked.under] using h

/-- A checked value settles what stands and what fails: it passes with exactly what stands, and
otherwise its problems name exactly the places that fail. -/
structure Settles (checked : Checked α) (stands : α → Prop) (fails : List Step → Prop) : Prop where
  pass_iff : ∀ a, checked = .pass a ↔ stands a
  lists : Lists fails checked.problems
  sound : checked.Sound

/-- Something passes with the only value that stands. -/
theorem settles_pass {stands : α → Prop} {fails : List Step → Prop} {a : α}
    (hstands : ∀ b, stands b ↔ a = b) (hfails : ∀ location, ¬fails location) :
    (Checked.pass a).Settles stands fails where
  pass_iff b := by rw [Checked.pass.injEq, hstands]
  lists := .nil hfails
  sound := by simp [Sound]

/-- Something is refused as a whole if nothing stands. -/
theorem settles_refuse {stands : α → Prop} {fails : List Step → Prop} (fault : Fault)
    (hstands : ∀ a, ¬stands a) (hfails : ∀ location, fails location ↔ location = []) :
    (refuse fault : Checked α).Settles stands fails where
  pass_iff a := by simp [refuse, hstands a]
  lists := .whole fault hfails
  sound := by simp [Sound, refuse]

end Checked

/-! ## Single values -/

/-- A string stands for itself, also if half of a surrogate pair stands alone in it. -/
inductive IsText : Json → LooseString → Prop where
  | str (s : String) : IsText (.str s) s
  | loose (s : LooseString) : IsText (.loose s) s

/-- A string of characters whose number lies between two bounds stands for itself. -/
def IsBounded (least most : Nat) (value : Json) (s : String) : Prop :=
  value = .str s ∧ least ≤ s.length ∧ s.length ≤ most

/-- A name stands for what has that name. -/
def IsNamed (name : α → String) (value : Json) (a : α) : Prop :=
  value = .str (name a)

/-- The value of a binary fraction. -/
def binaryValue (b : Number.Binary) : ℚ :=
  b.mantissa * (2 : ℚ) ^ b.exponent

/-- The words that stand for a truth value, in small letters. -/
def truthWords : Bool → List String
  | false => ["0", "off", "f", "false", "n", "no"]
  | true => ["1", "on", "t", "true", "y", "yes"]

/-- The values that stand for a truth value: the truth value itself, zero and one, numbers that are
rounded to zero, with any sign, or to one, and some words in small or capital letters. -/
inductive IsTruth : Json → Bool → Prop where
  | bool (b : Bool) : IsTruth (.bool b) b
  | zero : IsTruth (.int 0) false
  | one : IsTruth (.int 1) true
  | realZero {negative : Bool} {digits : Nat} {exponent : Int} {b : Number.Binary}
      (hround : Number.Decimal.toBinary? ⟨digits, exponent⟩ = some b) (hb : binaryValue b = 0) :
      IsTruth (.real negative digits exponent) false
  | realOne {digits : Nat} {exponent : Int} {b : Number.Binary}
      (hround : Number.Decimal.toBinary? ⟨digits, exponent⟩ = some b) (hb : binaryValue b = 1) :
      IsTruth (.real false digits exponent) true
  | word {s : String} {b : Bool} (h : String.ofList (s.toList.map Char.toLower) ∈ truthWords b) :
      IsTruth (.str s) b

/-- A value that stands for nothing fails as a whole. -/
def Unfit (stands : Json → α → Prop) (value : Json) (location : List Step) : Prop :=
  location = [] ∧ ∀ a, ¬stands value a

/-- A check that has at most one problem, with the value as a whole, settles what it passes with. -/
theorem settles_of_whole {check : Check α} {stands : Json → α → Prop}
    (hpass : ∀ value a, check value = .pass a ↔ stands value a)
    (hfail : ∀ value problems, check value = .fail problems →
      ∃ fault, problems = [{ location := [], fault }]) (value : Json) :
    (check value).Settles (stands value) (Unfit stands value) := by
  cases hcheck : check value with
  | pass a =>
    have hstands : ∀ b, stands value b ↔ a = b := fun b => by
      rw [← hpass, hcheck, Checked.pass.injEq]
    exact Checked.settles_pass hstands fun _ hunfit => hunfit.2 a ((hstands a).mpr rfl)
  | fail problems =>
    have hstands : ∀ a, ¬stands value a := fun a => by
      rw [← hpass, hcheck]
      simp
    obtain ⟨fault, rfl⟩ := hfail value problems hcheck
    exact Checked.settles_refuse fault hstands fun _ => and_iff_left hstands

/-- A refused value has one problem as a whole. -/
theorem eq_of_refuse_eq_fail {fault : Fault} {problems : List Problem}
    (h : (refuse fault : Checked α) = .fail problems) :
    ∃ fault, problems = [{ location := [], fault }] :=
  ⟨fault, (Checked.fail.inj h).symm⟩

/-- The check of strings. -/
theorem settles_checkString (value : Json) :
    (checkString value).Settles (IsText value) (Unfit IsText value) := by
  refine settles_of_whole (fun value s => ⟨fun h => ?_, fun h => ?_⟩) (fun value problems h => ?_) value
  · unfold checkString at h
    split at h
    · cases h
      exact .str _
    · cases h
      exact .loose _
    · cases h
  · cases h <;> rfl
  · unfold checkString at h
    split at h
    · cases h
    · cases h
    · exact eq_of_refuse_eq_fail h

/-- The check of strings of bounded length. -/
theorem settles_checkBounded (least most : Nat) (value : Json) :
    (checkBounded least most value).Settles (IsBounded least most value)
      (Unfit (IsBounded least most) value) := by
  refine settles_of_whole (fun value s => ⟨fun h => ?_, fun h => ?_⟩) (fun value problems h => ?_) value
  · unfold checkBounded at h
    split at h
    · split_ifs at h with hshort hlong
      · cases h
      · cases h
      · cases h
        exact ⟨rfl, not_lt.mp hshort, not_lt.mp hlong⟩
    · cases h
    · cases h
  · obtain ⟨rfl, hleast, hmost⟩ := h
    simp only [checkBounded]
    rw [if_neg (not_lt.mpr hleast), if_neg (not_lt.mpr hmost)]
  · unfold checkBounded at h
    split at h
    · split_ifs at h
      · exact eq_of_refuse_eq_fail h
      · exact eq_of_refuse_eq_fail h
    · exact eq_of_refuse_eq_fail h
    · exact eq_of_refuse_eq_fail h

/-- In a table that holds no name twice, each pair is found by its name. -/
theorem lookup_eq_some_iff_mem {words : List (String × α)} (h : (words.map Prod.fst).Nodup)
    {name : String} {a : α} : words.lookup name = some a ↔ (name, a) ∈ words := by
  induction words with
  | nil => simp
  | cons first rest ih =>
    obtain ⟨known, b⟩ := first
    rw [List.map_cons, List.nodup_cons] at h
    by_cases hname : name = known
    · subst hname
      have hrest : (name, a) ∉ rest := fun hmem => h.1 (List.mem_map.mpr ⟨(name, a), hmem, rfl⟩)
      simp [hrest, eq_comm]
    · have hne : (name == known) = false := beq_false_of_ne hname
      simp [List.lookup_cons, hne, hname, ih h.2]

/-- The check of words, for a table of the names of all values. -/
theorem settles_checkWord {words : List (String × α)} {name : α → String}
    (hnodup : (words.map Prod.fst).Nodup) (hwords : ∀ s a, (s, a) ∈ words ↔ s = name a)
    (value : Json) :
    (checkWord words value).Settles (IsNamed name value) (Unfit (IsNamed name) value) := by
  have hlookup (s : String) (a : α) : words.lookup s = some a ↔ s = name a := by
    rw [lookup_eq_some_iff_mem hnodup, hwords]
  refine settles_of_whole (fun value a => ⟨fun h => ?_, fun h => ?_⟩) (fun value problems h => ?_) value
  · unfold checkWord at h
    split at h
    · split at h
      · next hsome =>
        cases h
        exact congrArg Json.str ((hlookup _ _).mp hsome)
      · cases h
    · cases h
    · cases h
  · obtain rfl : value = .str (name a) := h
    simp only [checkWord, (hlookup _ _).mpr rfl]
  · unfold checkWord at h
    split at h
    · split at h
      · cases h
      · exact eq_of_refuse_eq_fail h
    · exact eq_of_refuse_eq_fail h
    · exact eq_of_refuse_eq_fail h

/-- The check of forms of output. -/
theorem settles_checkFormat (value : Json) :
    (checkWord Format.words value).Settles (IsNamed Format.name value)
      (Unfit (IsNamed Format.name) value) := by
  refine settles_checkWord (by decide) (fun s format => ⟨fun h => ?_, fun h => ?_⟩) value
  · simp only [Format.words, List.mem_cons, Prod.mk.injEq, List.not_mem_nil, or_false] at h
    obtain ⟨rfl, rfl⟩ | ⟨rfl, rfl⟩ | ⟨rfl, rfl⟩ := h <;> rfl
  · subst h
    cases format <;> decide

/-- The check of log levels. -/
theorem settles_checkLevel (value : Json) :
    (checkWord LogLevel.words value).Settles (IsNamed LogLevel.name value)
      (Unfit (IsNamed LogLevel.name) value) := by
  refine settles_checkWord (by decide) (fun s level => ⟨fun h => ?_, fun h => ?_⟩) value
  · simp only [LogLevel.words, List.mem_cons, Prod.mk.injEq, List.not_mem_nil, or_false] at h
    obtain ⟨rfl, rfl⟩ | ⟨rfl, rfl⟩ | ⟨rfl, rfl⟩ | ⟨rfl, rfl⟩ | ⟨rfl, rfl⟩ := h <;> rfl
  · subst h
    cases level <;> decide

/-- Whether a binary fraction is a natural number is read off its value. -/
theorem isNat_iff (b : Number.Binary) (n : Nat) : b.isNat n = true ↔ binaryValue b = n := by
  rw [Number.Binary.isNat, Number.Binary.toQuotient, binaryValue]
  by_cases h : 0 ≤ b.exponent
  · obtain ⟨k, hk⟩ := Int.eq_ofNat_of_zero_le h
    rw [if_pos h, hk, zpow_natCast]
    simp only [Int.toNat_natCast, decide_eq_true_iff, mul_one]
    norm_cast
  · obtain ⟨k, hk⟩ := Int.eq_ofNat_of_zero_le (by omega : 0 ≤ -b.exponent)
    have hexponent : b.exponent = -(k : ℤ) := by omega
    rw [if_neg h, hexponent, zpow_neg, zpow_natCast, mul_inv_eq_iff_eq_mul₀ (by positivity)]
    simp only [neg_neg, Int.toNat_natCast, decide_eq_true_iff]
    norm_cast

/-- The integers that stand for a truth value. -/
theorem boolOfInt_eq_pass_iff {n : Int} {b : Bool} : boolOfInt n = .pass b ↔ IsTruth (.int n) b := by
  constructor
  · intro h
    rw [boolOfInt] at h
    split_ifs at h with hzero hone
    · subst hzero
      cases h
      exact .zero
    · subst hone
      cases h
      exact .one
    · cases h
    · cases h
  · intro h
    cases h <;> rfl

/-- The numbers that stand for a truth value after rounding. -/
theorem boolOfDecimal_eq_pass_iff {negative : Bool} {digits : Nat} {exponent : Int} {b : Bool} :
    boolOfDecimal negative ⟨digits, exponent⟩ = .pass b ↔ IsTruth (.real negative digits exponent) b := by
  constructor
  · intro h
    rw [boolOfDecimal] at h
    split at h
    · next rounded hround =>
      rw [boolOfBinary] at h
      split_ifs at h with hzero hone
      · cases h
        exact .realZero hround (by simpa using (isNat_iff rounded 0).mp hzero)
      · obtain ⟨hvalue, hsign⟩ := Bool.and_eq_true_iff.mp hone
        obtain rfl : negative = false := by simpa using hsign
        cases h
        exact .realOne hround (by simpa using (isNat_iff rounded 1).mp hvalue)
      · cases h
      · cases h
    · cases h
  · intro h
    cases h with
    | realZero hround hb =>
      have hzero := (isNat_iff _ 0).mpr (by simpa using hb)
      simp only [boolOfDecimal, hround, boolOfBinary, hzero, if_true]
    | realOne hround hb =>
      have hone := (isNat_iff _ 1).mpr (by simpa using hb)
      have hzero := mt (isNat_iff _ 0).mp (by rw [hb]; simp)
      simp only [boolOfDecimal, hround, boolOfBinary, hone, Bool.not_false, Bool.and_self, if_true]
      rw [if_neg hzero]

/-- A number that stands for no truth value has one problem as a whole. -/
theorem eq_of_boolOfInt_eq_fail {n : Int} {problems : List Problem}
    (h : boolOfInt n = .fail problems) : ∃ fault, problems = [{ location := [], fault }] := by
  rw [boolOfInt] at h
  split_ifs at h
  · exact eq_of_refuse_eq_fail h
  · exact eq_of_refuse_eq_fail h

/-- The same holds after rounding. -/
theorem eq_of_boolOfDecimal_eq_fail {negative : Bool} {d : Number.Decimal} {problems : List Problem}
    (h : boolOfDecimal negative d = .fail problems) :
    ∃ fault, problems = [{ location := [], fault }] := by
  rw [boolOfDecimal] at h
  split at h
  · rw [boolOfBinary] at h
    split_ifs at h
    · exact eq_of_refuse_eq_fail h
    · exact eq_of_refuse_eq_fail h
  · exact eq_of_refuse_eq_fail h

/-- The check of truth values. -/
theorem settles_checkBool (value : Json) :
    (checkBool value).Settles (IsTruth value) (Unfit IsTruth value) := by
  have hwords (s : String) (b : Bool) : boolWords.lookup s = some b ↔ s ∈ truthWords b := by
    rw [lookup_eq_some_iff_mem (by decide)]
    cases b <;> simp [boolWords, truthWords]
  refine settles_of_whole (fun value b => ⟨fun h => ?_, fun h => ?_⟩) (fun value problems h => ?_) value
  · unfold checkBool at h
    split at h
    · cases h
      exact .bool b
    · exact boolOfInt_eq_pass_iff.mp h
    · exact boolOfDecimal_eq_pass_iff.mp h
    · split at h
      · next hsome =>
        cases h
        exact .word ((hwords _ _).mp hsome)
      · cases h
    · cases h
    · cases h
  · cases value with
    | bool c =>
      cases h
      rfl
    | int n => exact boolOfInt_eq_pass_iff.mpr h
    | real negative digits exponent => exact boolOfDecimal_eq_pass_iff.mpr h
    | str s =>
      cases h with
      | word hword => simp only [checkBool, (hwords _ _).mpr hword]
    | null | infinite _ | nan | loose _ | arr _ | obj _ => cases h
  · unfold checkBool at h
    split at h
    · cases h
    · exact eq_of_boolOfInt_eq_fail h
    · exact eq_of_boolOfDecimal_eq_fail h
    · split at h
      · cases h
      · exact eq_of_refuse_eq_fail h
    · exact eq_of_refuse_eq_fail h
    · exact eq_of_refuse_eq_fail h

end DocAtlas.Options
