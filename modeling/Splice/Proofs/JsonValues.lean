import Splice.Json.Text
import Splice.Proofs.ReadBack

/-!
# JSON texts as values

The JSON text of a string is read as this string in source text as well: both escape languages agree
on the escapes that JSON texts are written with. So a configured value that is a JSON text is taken
literally, whatever the environment holds.
-/
namespace Splice

namespace Json

/-! ## Escapes -/

theorem hexValue_hexDigit {n : Nat} (small : n < 16) : hexValue (hexDigit n) = some n := by
  have all : ∀ n < 16, hexValue (hexDigit n) = some n := by decide
  exact all n small

/-- The escape of a control character by its number. -/
theorem readEscape_control {n : Nat} (control : n < 0x20) (rest : List Char) :
    readEscape false ('u' :: '0' :: '0' :: hexDigit (n / 16) :: hexDigit (n % 16) :: rest) =
      .one (Char.ofNat n) rest 5 := by
  have zero : hexValue '0' = some 0 := rfl
  have high : hexValue (hexDigit (n / 16)) = some (n / 16) := hexValue_hexDigit (by omega)
  have low : hexValue (hexDigit (n % 16)) = some (n % 16) := hexValue_hexDigit (by omega)
  have sum : ((0 * 16 + 0) * 16 + n / 16) * 16 + n % 16 = n := by omega
  have code : readCodePoint ('0' :: '0' :: hexDigit (n / 16) :: hexDigit (n % 16) :: rest) =
      some ⟨n, rest, 4⟩ := by
    change (readFourHex _).map _ = _
    simp only [readFourHex, zero, high, low, sum, Option.map_some]
  have whole : isHighHalf n = false := by
    simp only [isHighHalf, Bool.and_eq_false_iff, decide_eq_false_iff_not]
    omega
  have other : isLowHalf n = false := by
    simp only [isLowHalf, Bool.and_eq_false_iff, decide_eq_false_iff_not]
    omega
  have char : TextUnit.ofCode n = .char (Char.ofNat n) := by
    rw [TextUnit.ofCode, whole, other]
    rfl
  rw [Escape.one, ← char]
  exact readUnicodeEscape_alone code whole

/-- A character of a JSON text stands for itself in source text, or is an escape that stands for the
character there, too. -/
theorem escape_read (c : Char) :
    (escape c = [c] ∧ c ≠ '\x22' ∧ c ≠ '\\' ∧ c ≠ '\n' ∧ c ≠ '\r') ∨
      ∃ cs, escape c = '\\' :: cs ∧
        ∀ rest, readEscape false (cs ++ rest) = .one c rest cs.length := by
  have known {n : Nat} {cs : List Char} (code : c.toNat = n)
      (read : ∀ rest, readEscape false (cs ++ rest) = .one (Char.ofNat n) rest cs.length) :
      ∃ ds, '\\' :: cs = '\\' :: ds ∧
        ∀ rest, readEscape false (ds ++ rest) = .one c rest ds.length := by
    refine ⟨cs, rfl, fun rest => ?_⟩
    rw [read, ← code, Char.ofNat_toNat]
  unfold escape
  split
  next code => exact .inr (known code fun rest => rfl)
  next code => exact .inr (known code fun rest => rfl)
  next code => exact .inr (known code fun rest => rfl)
  next code => exact .inr (known code fun rest => rfl)
  next code => exact .inr (known code fun rest => rfl)
  next code => exact .inr (known code fun rest => rfl)
  next code => exact .inr (known code fun rest => rfl)
  next quote backslash _ _ line carriage _ =>
    split
    next control => exact .inr (known rfl (readEscape_control control))
    next =>
      refine .inl ⟨rfl, ?_, ?_, ?_, ?_⟩
      · rintro rfl
        exact quote rfl
      · rintro rfl
        exact backslash rfl
      · rintro rfl
        exact line rfl
      · rintro rfl
        exact carriage rfl

/-! ## Strings -/

/-- A JSON text is read character by character, up to the closing quote. -/
theorem readStringFrom_escape (text rest : List Char) (fuel : Nat) (run : StringRun)
    (enough : (text.flatMap escape).length < fuel) :
    ∃ left escaped, readStringFrom '\x22' fuel (text.flatMap escape ++ '\x22' :: rest) run =
      readStringFrom '\x22' (left + 1) ('\x22' :: rest)
        { units := (text.map TextUnit.char).reverse ++ run.units
          count := run.count + (text.flatMap escape).length
          escaped, problems := run.problems } := by
  induction text generalizing fuel run with
  | nil =>
    obtain ⟨left, rfl⟩ := Nat.exists_eq_add_of_lt enough
    exact ⟨left, run.escaped, by simp⟩
  | cons c text ih =>
    rw [List.flatMap_cons] at enough ⊢
    obtain ⟨fuel, rfl⟩ : ∃ n, fuel = n + 1 := ⟨fuel - 1, by omega⟩
    rcases escape_read c with ⟨same, quote, backslash, line, carriage⟩ | ⟨cs, same, undone⟩
    · rw [same] at enough ⊢
      simp only [List.length_append, List.length_singleton] at enough
      obtain ⟨left, escaped, read⟩ := ih fuel
        { run with units := .char c :: run.units, count := run.count + 1 } (by omega)
      refine ⟨left, escaped, ?_⟩
      rw [List.append_assoc, List.singleton_append,
        readStringFrom_bare _ _ quote backslash line carriage, read]
      simp [Nat.add_assoc, Nat.add_comm]
    · rw [same] at enough ⊢
      simp only [List.length_append, List.length_cons] at enough
      obtain ⟨left, escaped, read⟩ := ih fuel
        { units := .char c :: run.units, count := run.count + 1 + cs.length, escaped := true,
          problems := run.problems } (by omega)
      refine ⟨left, escaped, ?_⟩
      rw [List.append_assoc, List.cons_append, readStringFrom_escaped _ _ (undone _), read]
      simp [Nat.add_assoc, Nat.add_comm, Nat.add_left_comm]

/-- The inside of a JSON text is read as the text it has been written for. -/
theorem stringBody (text : List Char) : StringBody (text.flatMap escape) text := by
  intro rest fuel enough
  obtain ⟨left, escaped, read⟩ := readStringFrom_escape text rest (fuel + 1) { count := 1 }
    (Nat.lt_succ_of_le enough)
  refine ⟨escaped, read.trans ?_⟩
  rw [readStringFrom.eq_def]
  simp [encodeUnits_chars]
  omega

end Json

/-! ## Values -/

/-- No reference to a variable begins with a quote. -/
theorem Environment.reference?_doubleQuoted (body : List Char) :
    reference? (doubleQuoted body) = none := by
  have visible : ¬ Blank.isBlank '\x22' = true := by decide
  have kept : (doubleQuoted body).toList.dropWhile Blank.isBlank = '\x22' :: (body ++ ['\x22']) := by
    rw [toList_doubleQuoted, List.dropWhile_cons_of_neg visible]
  have trimmed : Blank.trim (doubleQuoted body).toList = '\x22' :: (body ++ ['\x22']) := by
    rw [Blank.trim, Blank.trimStart, kept, Blank.trimEnd, List.reverse_cons, List.reverse_append,
      List.reverse_singleton, List.singleton_append, List.cons_append,
      List.dropWhile_cons_of_neg visible]
    simp
  rw [reference?, trimmed]
  rfl

namespace Replacement

/-- The JSON text of a string stands for the string: it is classified as that, refers to no variable,
and resolves to the string in every environment. -/
theorem json_text_is_literal (s : String) :
    classify (String.ofList (Json.writeText s.toList)) = .string s ∧
    Environment.reference? (String.ofList (Json.writeText s.toList)) = none ∧
    ∀ env, resolve env (.text (String.ofList (Json.writeText s.toList))) =
      .resolved (.string s) := by
  have classified : classify (String.ofList (Json.writeText s.toList)) = .string s :=
    (Json.stringBody s.toList).classify
  have noReference := Environment.reference?_doubleQuoted (s.toList.flatMap Json.escape)
  refine ⟨classified, noReference, fun env => ?_⟩
  unfold resolve
  simp only [← classified]
  split
  next name found => cases noReference.symm.trans found
  next => rfl

end Replacement

end Splice
