import Mathlib.Data.List.TakeWhile
import Splice.Text.Blank

/-!
# Trimming

Keys of definitions and references to variables are trimmed. Here it is said what this means without
a function: white space is a list of code points, and a trimmed text is what stands between white
space and neither begins nor ends with it. Exactly one text does.
-/
namespace Splice

theorem inTable_cons (low high : Nat) (rest : List Nat) (code : Nat) :
    inTable (low :: high :: rest) code = true ↔
      low ≤ code ∧ (code < high ∨ inTable rest code = true) := by
  rw [inTable]
  split
  next below => simp [Nat.not_le.mpr below]
  next above => simp [Nat.not_lt.mp above]

/-- The code points with the Unicode property White_Space. -/
def whiteSpaceCodes : List Nat :=
  [0x9, 0xa, 0xb, 0xc, 0xd, 0x20, 0x85, 0xa0, 0x1680, 0x2000, 0x2001, 0x2002, 0x2003, 0x2004,
    0x2005, 0x2006, 0x2007, 0x2008, 0x2009, 0x200a, 0x2028, 0x2029, 0x202f, 0x205f, 0x3000]

def IsWhiteSpace (c : Char) : Prop := c.toNat ∈ whiteSpaceCodes

instance (c : Char) : Decidable (IsWhiteSpace c) := inferInstanceAs (Decidable (_ ∈ _))

/-- A text of white space only. -/
def AllWhiteSpace (text : List Char) : Prop := ∀ c ∈ text, IsWhiteSpace c

-- Decided along the text, not over all characters.
instance (text : List Char) : Decidable (AllWhiteSpace text) :=
  List.decidableBAll IsWhiteSpace text

/-- What is left of a text without the white space at its ends. -/
structure Trims (text kept : List Char) : Prop where
  parts : ∃ before after, text = before ++ kept ++ after ∧ AllWhiteSpace before ∧
    AllWhiteSpace after
  first : ∀ c ∈ kept.head?, ¬ IsWhiteSpace c
  last : ∀ c ∈ kept.getLast?, ¬ IsWhiteSpace c

namespace Blank

/-- The table of blanks has the code points of white space. -/
theorem isBlank_iff (c : Char) : isBlank c = true ↔ IsWhiteSpace c := by
  have none : inTable [] c.toNat = false := rfl
  simp only [isBlank, inTable_cons, none, IsWhiteSpace, whiteSpaceCodes, List.mem_cons,
    List.not_mem_nil, or_false, Bool.false_eq_true]
  omega

/-! ## Each end -/

theorem dropWhile_append {before : List Char} (blank : AllWhiteSpace before) (s : List Char) :
    (before ++ s).dropWhile isBlank = s.dropWhile isBlank :=
  List.dropWhile_append_of_pos fun c inside => (isBlank_iff c).mpr (blank c inside)

theorem dropWhile_of_head {s : List Char} (first : ∀ c ∈ s.head?, ¬ IsWhiteSpace c) :
    s.dropWhile isBlank = s := by
  cases s with
  | nil => rfl
  | cons c s =>
    have visible : ¬ isBlank c = true := fun blank => first c rfl ((isBlank_iff c).mp blank)
    rw [List.dropWhile_cons_of_neg visible]

/-- What is dropped at the start is white space, and what is left does not begin with it. -/
theorem exists_dropWhile (s : List Char) :
    ∃ before, s = before ++ s.dropWhile isBlank ∧ AllWhiteSpace before ∧
      ∀ c ∈ (s.dropWhile isBlank).head?, ¬ IsWhiteSpace c := by
  refine ⟨s.takeWhile isBlank, List.takeWhile_append_dropWhile.symm, ?_, ?_⟩
  · intro c inside
    exact (isBlank_iff c).mp (List.mem_takeWhile_imp inside)
  · intro c first white
    have visible := List.head?_dropWhile_not isBlank s
    rw [Option.mem_def.mp first] at visible
    exact Bool.false_ne_true (visible.symm.trans ((isBlank_iff c).mpr white))

theorem trimEnd_append {after : List Char} (blank : AllWhiteSpace after) (s : List Char) :
    trimEnd (s ++ after) = trimEnd s := by
  have reversed : AllWhiteSpace after.reverse := fun c inside => blank c (List.mem_reverse.mp inside)
  rw [trimEnd, List.reverse_append, dropWhile_append reversed, trimEnd]

theorem trimEnd_of_last {s : List Char} (last : ∀ c ∈ s.getLast?, ¬ IsWhiteSpace c) :
    trimEnd s = s := by
  have first : ∀ c ∈ s.reverse.head?, ¬ IsWhiteSpace c := by rwa [List.head?_reverse]
  rw [trimEnd, dropWhile_of_head first, List.reverse_reverse]

/-- What is dropped at the end is white space, and what is left does not end with it. -/
theorem exists_trimEnd (s : List Char) :
    ∃ after, s = trimEnd s ++ after ∧ AllWhiteSpace after ∧
      ∀ c ∈ (trimEnd s).getLast?, ¬ IsWhiteSpace c := by
  obtain ⟨dropped, parts, blank, first⟩ := exists_dropWhile s.reverse
  refine ⟨dropped.reverse, ?_, fun c inside => blank c (List.mem_reverse.mp inside), ?_⟩
  · rw [trimEnd, ← List.reverse_append, ← parts, List.reverse_reverse]
  · rwa [trimEnd, List.getLast?_reverse]

/-! ## Both ends -/

theorem trim_eq_nil {text : List Char} (blank : AllWhiteSpace text) : trim text = [] := by
  have dropped := dropWhile_append blank []
  rw [List.append_nil] at dropped
  rw [trim, trimStart, dropped]
  rfl

theorem trims_trim (text : List Char) : Trims text (trim text) := by
  obtain ⟨before, start, blank, first⟩ := exists_dropWhile text
  obtain ⟨after, finish, blank', last⟩ := exists_trimEnd (trimStart text)
  refine ⟨⟨before, after, ?_, blank, blank'⟩, ?_, last⟩
  · rw [List.append_assoc, trim, ← finish]
    exact start
  · intro c head
    refine first c ?_
    change c ∈ (trimStart text).head?
    rw [finish, List.head?_append]
    exact Option.mem_def.mpr (by rw [trim, Option.mem_def] at head; rw [head]; rfl)

/-- A trimmed text is the one text that stands between white space and has none at its ends. -/
theorem trim_eq_iff {text kept : List Char} : trim text = kept ↔ Trims text kept := by
  constructor
  · rintro rfl
    exact trims_trim text
  · rintro ⟨⟨before, after, rfl, blank, blank'⟩, first, last⟩
    rw [List.append_assoc, trim, trimStart, dropWhile_append blank]
    cases kept with
    | nil =>
      rw [List.nil_append]
      exact trim_eq_nil blank'
    | cons c kept =>
      rw [dropWhile_of_head (by simpa using first), trimEnd_append blank', trimEnd_of_last last]

/-- Nothing is left of white space only. -/
theorem trim_eq_nil_iff {text : List Char} : trim text = [] ↔ AllWhiteSpace text := by
  refine ⟨fun nothing => ?_, trim_eq_nil⟩
  obtain ⟨before, after, parts, blank, blank'⟩ := (trim_eq_iff.mp nothing).parts
  rw [parts, List.append_nil]
  intro c inside
  exact (List.mem_append.mp inside).elim (blank c) (blank' c)

end Blank

end Splice
