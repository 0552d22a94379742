import Mathlib
import Splice.Text.Quoted
import Splice.Token.Scan

/-!
# Written strings are read back

A text is written between double quotes character by character: as it is, behind a backslash, or
with a backslash after the bracket of a closing tag. Reading undoes all three, so between its quotes
every text stands for itself.
-/
namespace Splice

/-! ## Escapes -/

/-- The escape of a code point that is no half of a pair is read alone. -/
theorem readUnicodeEscape_alone {cs rest : List Char} {code taken : Nat}
    (read : readCodePoint cs = some ⟨code, rest, taken⟩) (whole : isHighHalf code = false) :
    readUnicodeEscape cs = { units := some [.ofCode code], rest, taken := taken + 1 } := by
  unfold readUnicodeEscape
  simp only [read, whole, Bool.false_and, Bool.false_eq_true, if_false]
  split
  · rfl
  · split <;> rfl
  · rfl

/-- A zero that no digit follows is the character zero. -/
theorem readEscape_zero {rest : List Char} (last : rest.head?.any Char.isDigit = false) :
    readEscape false ('0' :: rest) = .one '\x00' rest 1 := by
  have zero : readEscape false ('0' :: rest) =
      if (!rest.head?.any Char.isDigit) = true then .one '\x00' rest 1 else readOctal '0' rest := rfl
  rw [zero, last]
  rfl

namespace Quoted

/-- How a character between double quotes is written: as it is, behind a backslash with what the
backslash makes of it, or as the first one of a closing tag that is broken up. -/
inductive Written (c : Char) (next : List Char) : List Char → Prop where
  | bare : c ≠ '\x22' → c ≠ '\\' → c ≠ '\n' → c ≠ '\r' → Written c next [c]
  | escaped {cs : List Char} : c.isDigit = false →
    (∀ rest, rest.head?.any Char.isDigit = next.head?.any Char.isDigit →
      readEscape false (cs ++ rest) = .one c rest cs.length) → Written c next ('\\' :: cs)
  | tag : closesScript (c :: next) = true → Written c next [c, '\\']

theorem escape_written (c : Char) (next : List Char) : Written c next (escape .double c next) := by
  have code (d : Char) : c = d ↔ c.toNat = d.toNat := Char.toNat_inj.symm
  have separator (last : Char) (rest : List Char) {code : Nat}
      (read : readCodePoint ('2' :: '0' :: '2' :: last :: rest) = some ⟨code, rest, 4⟩)
      (whole : isHighHalf code = false) (char : TextUnit.ofCode code = .char c) :
      readEscape false ('u' :: '2' :: '0' :: '2' :: last :: rest) = .one c rest 5 := by
    rw [Escape.one, ← char]
    exact readUnicodeEscape_alone read whole
  unfold escape
  split
  next zero =>
    obtain rfl := (code '\x00').mpr zero
    split
    next => exact .escaped rfl fun rest _ => rfl
    next last =>
      exact .escaped rfl fun rest same => readEscape_zero (same.trans (by simpa using last))
  next bell =>
    obtain rfl := (code '\x07').mpr bell
    exact .escaped rfl fun rest _ => rfl
  next backspace =>
    obtain rfl := (code '\x08').mpr backspace
    exact .escaped rfl fun rest _ => rfl
  next tab =>
    obtain rfl := (code '\x0b').mpr tab
    exact .escaped rfl fun rest _ => rfl
  next feed =>
    obtain rfl := (code '\x0c').mpr feed
    exact .escaped rfl fun rest _ => rfl
  next line =>
    obtain rfl := (code '\n').mpr line
    exact .escaped rfl fun rest _ => rfl
  next carriage =>
    obtain rfl := (code '\r').mpr carriage
    exact .escaped rfl fun rest _ => rfl
  next escape =>
    obtain rfl := (code '\x1b').mpr escape
    exact .escaped rfl fun rest _ => rfl
  next backslash =>
    obtain rfl := (code '\\').mpr backslash
    exact .escaped rfl fun rest _ => rfl
  next lines =>
    obtain rfl := (code '\u2028').mpr lines
    exact .escaped rfl fun rest _ => separator '8' rest rfl rfl rfl
  next paragraphs =>
    obtain rfl := (code '\u2029').mpr paragraphs
    exact .escaped rfl fun rest _ => separator '9' rest rfl rfl rfl
  next space =>
    obtain rfl := (code '\u00a0').mpr space
    exact .escaped rfl fun rest _ => rfl
  next line carriage _ backslash _ _ _ =>
    split
    next quote =>
      obtain rfl : c = '\x22' := quote
      exact .escaped rfl fun rest _ => rfl
    next other =>
      split
      next closing => exact .tag closing
      next =>
        rw [if_neg (by simp)]
        exact .bare other (fun same => backslash ((code _).mp same))
          (fun same => line ((code _).mp same)) (fun same => carriage ((code _).mp same))

/-- Writing keeps whether a digit comes first. -/
theorem escapeAll_digit (cs rest : List Char) :
    (escapeAll .double cs ++ '\x22' :: rest).head?.any Char.isDigit =
      cs.head?.any Char.isDigit := by
  cases cs with
  | nil => rfl
  | cons c next =>
    rw [escapeAll]
    have written := escape_written c next
    revert written
    generalize escape .double c next = text
    rintro (_ | ⟨plain, -⟩ | _)
    · rfl
    · simp [plain]
    · rfl

/-- Inside a closing tag, only the bracket is followed by a backslash. -/
theorem closesScript_cases {c : Char} {next : List Char}
    (closing : closesScript (c :: next) = true) :
    ∃ inside, c = '<' ∧ next = '/' :: inside ∧ escape .double '/' inside = ['/'] := by
  unfold closesScript at closing
  split at closing
  next inside same =>
    obtain ⟨rfl, rfl⟩ := List.cons.inj same
    exact ⟨inside, rfl, rfl, by simp [escape, closesScript, Quote.char]⟩
  next => cases closing

end Quoted

/-! ## Strings -/

theorem readStringFrom_bare (fuel : Nat) (run : StringRun) {c : Char} (quote : c ≠ '\x22')
    (backslash : c ≠ '\\') (line : c ≠ '\n') (carriage : c ≠ '\r') (rest : List Char) :
    readStringFrom '\x22' (fuel + 1) (c :: rest) run = readStringFrom '\x22' fuel rest
      { run with units := .char c :: run.units, count := run.count + 1 } := by
  rw [readStringFrom.eq_def]
  simp [quote, backslash, line, carriage]

theorem readStringFrom_escaped (fuel : Nat) (run : StringRun) {c : Char} {cs rest : List Char}
    (read : readEscape false (cs ++ rest) = .one c rest cs.length) :
    readStringFrom '\x22' (fuel + 1) ('\\' :: (cs ++ rest)) run = readStringFrom '\x22' fuel rest
      { units := .char c :: run.units, count := run.count + 1 + cs.length, escaped := true,
        problems := run.problems } := by
  rw [readStringFrom.eq_def]
  cases text : cs ++ rest with
  | nil => simp [text, readEscape, Escape.invalid, Escape.one] at read
  | cons d ds =>
    rw [text] at read
    simp [read, Escape.one]

/-- A written text is read character by character, up to the closing quote. -/
theorem readStringFrom_written (text rest : List Char) (fuel : Nat) (run : StringRun)
    (enough : (Quoted.escapeAll .double text).length < fuel) :
    ∃ left escaped,
      readStringFrom '\x22' fuel (Quoted.escapeAll .double text ++ '\x22' :: rest) run =
      readStringFrom '\x22' (left + 1) ('\x22' :: rest)
        { units := (text.map TextUnit.char).reverse ++ run.units
          count := run.count + (Quoted.escapeAll .double text).length
          escaped, problems := run.problems } := by
  match text with
  | [] =>
    obtain ⟨left, rfl⟩ := Nat.exists_eq_add_of_lt enough
    exact ⟨left, run.escaped, by simp [Quoted.escapeAll]⟩
  | c :: next =>
    have digit := Quoted.escapeAll_digit next rest
    have written := Quoted.escape_written c next
    rw [Quoted.escapeAll] at enough ⊢
    generalize Quoted.escape .double c next = first at written enough ⊢
    obtain ⟨fuel, rfl⟩ : ∃ n, fuel = n + 1 := ⟨fuel - 1, by omega⟩
    cases written with
    | bare quote backslash line carriage =>
      simp only [List.length_append, List.length_singleton] at enough
      obtain ⟨left, escaped, read⟩ := readStringFrom_written next rest fuel
        { run with units := .char c :: run.units, count := run.count + 1 } (by omega)
      refine ⟨left, escaped, ?_⟩
      rw [List.append_assoc, List.singleton_append,
        readStringFrom_bare _ _ quote backslash line carriage, read]
      simp [Nat.add_assoc, Nat.add_comm]
    | @escaped cs _ undone =>
      simp only [List.length_append, List.length_cons] at enough
      obtain ⟨left, escaped, read⟩ := readStringFrom_written next rest fuel
        { units := .char c :: run.units, count := run.count + 1 + cs.length, escaped := true,
          problems := run.problems } (by omega)
      refine ⟨left, escaped, ?_⟩
      rw [List.append_assoc, List.cons_append, readStringFrom_escaped _ _ (undone _ digit),
        read]
      simp [Nat.add_assoc, Nat.add_comm, Nat.add_left_comm]
    | tag closing =>
      -- the backslash is read together with the slash after the bracket
      obtain ⟨inside, rfl, rfl, slash⟩ := Quoted.closesScript_cases closing
      simp only [Quoted.escapeAll, slash, List.length_append, List.length_cons, List.length_nil]
        at enough ⊢
      obtain ⟨fuel, rfl⟩ : ∃ n, fuel = n + 1 := ⟨fuel - 1, by omega⟩
      obtain ⟨left, escaped, read⟩ := readStringFrom_written inside rest fuel
        { units := .char '/' :: .char '<' :: run.units, count := run.count + 1 + 1 + 1,
          escaped := true, problems := run.problems } (by omega)
      refine ⟨left, escaped, ?_⟩
      have bracket := readStringFrom_bare (fuel + 1) run (c := '<') (by decide) (by decide)
        (by decide) (by decide)
        ('\\' :: (['/'] ++ (Quoted.escapeAll .double inside ++ '\x22' :: rest)))
      rw [readStringFrom_escaped _ _ (c := '/') rfl, List.length_singleton, read] at bracket
      simp only [List.map_cons, List.reverse_cons, List.append_assoc, List.cons_append,
        List.nil_append]
      refine bracket.trans ?_
      congr 2
      change run.count + 1 + 1 + 1 + _ = _
      omega
termination_by text.length

/-- Characters alone are encoded as they are. -/
theorem encodeUnits_chars (text : List Char) :
    encodeUnits (text.map TextUnit.char) = (String.ofList text, false) := by
  have whole : (text.map TextUnit.char).any TextUnit.isHalf = false := by
    simp [List.any_eq_false, TextUnit.isHalf]
  have plain : (text.map TextUnit.char).flatMap TextUnit.plain = text := by
    induction text with
    | nil => rfl
    | cons c text ih => rw [List.map_cons, List.flatMap_cons, ih (by simp [TextUnit.isHalf])]; rfl
  rw [encodeUnits, whole, plain]
  rfl

/-- A text written between double quotes is read as itself. -/
theorem readString_written (text rest : List Char) (fuel : Nat)
    (enough : (Quoted.escapeAll .double text).length ≤ fuel) :
    ∃ escaped, readString '\x22' fuel (Quoted.escapeAll .double text ++ '\x22' :: rest) =
      { kind := .string (String.ofList text) false, rest
        count := (Quoted.escapeAll .double text).length + 2, escaped } := by
  obtain ⟨left, escaped, read⟩ := readStringFrom_written text rest (fuel + 1) { count := 1 }
    (Nat.lt_succ_of_le enough)
  refine ⟨escaped, read.trans ?_⟩
  rw [readStringFrom.eq_def]
  simp [encodeUnits_chars]
  omega

/-- Between double quotes, whatever follows them, `body` is read as the characters of `text`. -/
def StringBody (body text : List Char) : Prop :=
  ∀ rest fuel, body.length ≤ fuel → ∃ escaped, readString '\x22' fuel (body ++ '\x22' :: rest) =
    { kind := .string (String.ofList text) false, rest, count := body.length + 2, escaped }

theorem StringBody.escapeAll (text : List Char) :
    StringBody (Quoted.escapeAll .double text) text :=
  readString_written text

/-- What begins with a double quote is a string. -/
theorem readLexeme_quote (fuel pos : Nat) (cs : List Char) :
    readLexeme fuel pos ('\x22' :: cs) = readString '\x22' fuel cs := by
  have start : NameChar.isStart '\x22' = false := by decide
  rw [readLexeme, start]
  rfl

end Splice
