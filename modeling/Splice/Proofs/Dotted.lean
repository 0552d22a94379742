import Mathlib.Data.List.TakeWhile
import Splice.Decimal.Style
import Splice.Proofs.Layout

/-!
# Dotted names

Texts such as `a` and `a.b.c`: names with dots between them, of which the first is no reserved word.
No other character stands in them and they do not begin with a digit, so a constant is never
printed like one.
-/
namespace Splice

/-! ## Names with dots between them -/

/-- A name that is no reserved word, or a dotted name, a dot and another name. -/
inductive Dotted : List Char → Prop where
  | root (w : Word) (free : isReservedWord w.text = false) : Dotted w.text.toList
  | member {object : List Char} (dotted : Dotted object) (w : Word) :
      Dotted (object ++ '.' :: w.text.toList)

/-- A character of no dotted name. -/
def isForeign (c : Char) : Bool := c != '.' && !NameChar.isPart c

namespace Word

theorem isPart_of_mem (w : Word) {c : Char} (inside : c ∈ w.text.toList) :
    NameChar.isPart c = true := by
  obtain ⟨d, cs, text, -, parts⟩ := w.chars_eq
  exact parts c (text ▸ inside)

theorem dot_not_mem (w : Word) : '.' ∉ w.text.toList := fun inside =>
  absurd (w.isPart_of_mem inside) (by decide)

end Word

namespace Dotted

variable {t : List Char}

theorem not_foreign (dotted : Dotted t) {c : Char} (inside : c ∈ t) : isForeign c = false := by
  have part : c = '.' ∨ NameChar.isPart c = true := by
    induction dotted with
    | root w free => exact Or.inr (w.isPart_of_mem inside)
    | member dotted w ih =>
      rcases List.mem_append.mp inside with before | after
      · exact ih before
      · rcases List.mem_cons.mp after with dot | name
        · exact Or.inl dot
        · exact Or.inr (w.isPart_of_mem name)
  rcases part with rfl | part
  · rfl
  · simp [isForeign, part]

/-- A text with a foreign character is no dotted name. -/
theorem of_foreign {c : Char} (inside : c ∈ t) (foreign : isForeign c = true) : ¬ Dotted t :=
  fun dotted => by simp [dotted.not_foreign inside] at foreign

theorem exists_head (dotted : Dotted t) :
    ∃ c cs, t = c :: cs ∧ NameChar.isStart c = true := by
  induction dotted with
  | root w free =>
    obtain ⟨c, cs, text, start, -⟩ := w.chars_eq
    exact ⟨c, cs, text, start⟩
  | member dotted w ih =>
    obtain ⟨c, cs, rfl, start⟩ := ih
    exact ⟨c, cs ++ '.' :: w.text.toList, rfl, start⟩

theorem ne_nil (dotted : Dotted t) : t ≠ [] := by
  obtain ⟨c, cs, rfl, -⟩ := dotted.exists_head
  exact List.cons_ne_nil c cs

/-- What stands before a dot is a dotted name itself. -/
theorem of_append {a b : List Char} (dotted : Dotted (a ++ '.' :: b)) : Dotted a := by
  generalize whole : a ++ '.' :: b = t at dotted
  induction dotted generalizing b with
  | root w free =>
    exact absurd (whole ▸ by simp) w.dot_not_mem
  | @member object dotted w ih =>
    rcases List.append_eq_append_iff.mp whole with ⟨c, same, rest⟩ | ⟨c, same, rest⟩
    · -- the dot of `a` lies in the object, or is the last one
      cases c with
      | nil =>
        rw [List.append_nil] at same
        exact same ▸ dotted
      | cons d c =>
        obtain ⟨rfl, -⟩ := List.cons.inj rest
        exact ih same.symm
    · cases c with
      | nil =>
        rw [List.append_nil] at same
        exact same ▸ dotted
      | cons d c =>
        have inside : '.' ∈ w.text.toList := by
          obtain ⟨-, tail⟩ := List.cons.inj rest
          simp [tail]
        exact absurd inside w.dot_not_mem

/-- Reserved words have no dots, and so they are no dotted names. -/
theorem not_reserved {w : String} (dotted : Dotted w.toList) : isReservedWord w = false := by
  generalize same : w.toList = t at dotted
  cases dotted with
  | root name free => rwa [String.toList_inj.mp same]
  | member dotted name =>
    have plain : ∀ r ∈ reservedWords, '.' ∉ r.toList := by decide
    rw [isReservedWord, ← Bool.not_eq_true, List.contains_iff_mem]
    intro reserved
    exact plain w reserved (by simp [same])

end Dotted

/-! ## Numbers -/

/-- A number as it is usually written: with a digit other than zero first, a bare zero, or a zero
and a point. -/
inductive NumberText : List Char → Prop where
  | digit {c : Char} {cs : List Char} (digit : c.isDigit = true) (positive : c ≠ '0') :
      NumberText (c :: cs)
  | zero : NumberText ['0']
  | fraction {cs : List Char} (digits : ∀ c ∈ cs, c.isDigit = true) :
      NumberText ('0' :: '.' :: cs)

namespace Decimal

/-- The digits of a positive number do not begin with zero. -/
theorem exists_head_toDigits {n : Nat} (positive : n ≠ 0) :
    ∃ c cs, Nat.toDigits 10 n = c :: cs ∧ c.isDigit = true ∧ c ≠ '0' := by
  induction n using Nat.strongRecOn with
  | ind n ih =>
    rw [Nat.toDigits_eq_if (by decide)]
    split
    next small =>
      have digits : ∀ k < 10, k ≠ 0 → (Nat.digitChar k).isDigit = true ∧ Nat.digitChar k ≠ '0' := by
        decide
      exact ⟨_, [], rfl, digits n small positive⟩
    next large =>
      obtain ⟨c, cs, head, facts⟩ := ih (n / 10) (by omega) (by omega)
      exact ⟨c, cs ++ [_], by rw [head]; rfl, facts⟩

theorem digitText_toList (d : Decimal) : d.digitText.toList = Nat.toDigits 10 d.digits := by
  rw [digitText, Nat.toString_eq_ofList_toDigits, String.toList_ofList]

theorem isDigit_of_mem_digitText (d : Decimal) {c : Char} (inside : c ∈ d.digitText.toList) :
    c.isDigit = true :=
  Nat.isDigit_of_mem_toDigits (by decide) (by decide) (d.digitText_toList ▸ inside)

variable {d : Decimal}

theorem exists_head_digitText (positive : d.digits ≠ 0) :
    ∃ c cs, d.digitText.toList = c :: cs ∧ c.isDigit = true ∧ c ≠ '0' :=
  d.digitText_toList ▸ exists_head_toDigits positive

theorem scientific_numberText (positive : d.digits ≠ 0) : NumberText d.scientific.toList := by
  obtain ⟨c, cs, digits, digit, nonzero⟩ := exists_head_digitText positive
  have head : ∃ rest, d.scientific.toList = c :: rest := by
    unfold scientific
    rw [digits]
    cases cs <;> simp
  obtain ⟨rest, text⟩ := head
  exact text ▸ .digit digit nonzero

theorem positional_numberText (positive : d.digits ≠ 0) : NumberText d.positional.toList := by
  obtain ⟨c, cs, digits, digit, nonzero⟩ := exists_head_digitText positive
  unfold positional
  dsimp only
  split
  · have text : ("0." ++ zeros (-d.point).toNat ++ d.digitText).toList =
        '0' :: '.' :: (List.replicate (-d.point).toNat '0' ++ d.digitText.toList) := by
      simp [zeros]
    rw [text]
    refine .fraction fun c inside => ?_
    rcases List.mem_append.mp inside with zero | own
    · rw [List.eq_of_mem_replicate zero]
      rfl
    · exact d.isDigit_of_mem_digitText own
  · split
    · rw [String.toList_append, digits]
      exact .digit digit nonzero
    next after short =>
      have point : d.point.toNat = (d.point.toNat - 1) + 1 := by omega
      rw [String.toList_append, String.toList_append, String.toList_ofList, digits, point]
      exact .digit digit nonzero

end Decimal

namespace Double

theorem scriptText_numberText {x : Double} (nan : x.isNaN = false) (finite : x.isInfinite = false)
    (positive : x.isNegative = false) : NumberText x.scriptText.toList := by
  unfold scriptText signed
  simp only [nan, finite, positive, Bool.false_eq_true, if_false]
  split
  · exact .zero
  · split
    · exact Decimal.scientific_numberText ‹_›
    · exact Decimal.positional_numberText ‹_›

/-- The text begins like a number. -/
def BeginsNumber (t : List Char) : Prop := ∃ c cs, t = c :: cs ∧ (c.isDigit = true ∨ c = '.')

theorem shortestText_cases (best : List Char) (ts : List (List Char)) :
    shortestText best ts = best ∨
      shortestText best ts ∈ ts ∧ (shortestText best ts).length < best.length := by
  induction ts generalizing best with
  | nil => exact Or.inl rfl
  | cons t ts ih =>
    rw [shortestText]
    by_cases shorter : t.length < best.length
    · rw [if_pos shorter]
      rcases ih t with same | ⟨inside, less⟩
      · exact Or.inr ⟨by simp [same], by rwa [same]⟩
      · exact Or.inr ⟨List.mem_cons_of_mem t inside, Nat.lt_trans less shorter⟩
    · rw [if_neg shorter]
      exact (ih best).imp_right fun found => ⟨List.mem_cons_of_mem t found.1, found.2⟩

theorem zerosToExponent_head {c : Char} {cs t : List Char} (nonzero : c ≠ '0')
    (found : zerosToExponent (c :: cs) = some t) : ∃ rest, t = c :: rest := by
  have fewer : ((c :: cs).reverse.takeWhile (· == '0')).length < (c :: cs).length := by
    have some_other : (c :: cs).reverse.takeWhile (· == '0') ≠ (c :: cs).reverse := by
      intro all
      have inside : c ∈ (c :: cs).reverse.takeWhile (· == '0') := by
        rw [all]
        simp
      exact nonzero (by simpa using List.mem_takeWhile_imp inside)
    have prefixed := List.takeWhile_prefix (p := (· == '0')) (l := (c :: cs).reverse)
    have shorter := prefixed.length_le
    rw [List.length_reverse] at shorter
    exact Nat.lt_of_le_of_ne shorter fun same =>
      some_other (prefixed.eq_of_length (by rw [same, List.length_reverse]))
  unfold zerosToExponent at found
  dsimp only at found
  split at found
  · cases found
  · obtain rfl := Option.some.inj found
    obtain ⟨k, kept⟩ := Nat.exists_eq_add_of_lt (Nat.sub_pos_of_lt fewer)
    rw [kept, Nat.zero_add, List.take_succ_cons]
    exact ⟨_, rfl⟩

theorem pointIntoExponent_head {c : Char} {cs t : List Char} (other : c ≠ '.')
    (found : pointIntoExponent (c :: cs) = some t) : ∃ rest, t = c :: rest := by
  unfold pointIntoExponent at found
  dsimp only at found
  split at found
  · cases found
  · obtain rfl := Option.some.inj found
    rw [List.takeWhile_cons_of_pos (by simpa using other)]
    exact ⟨_, rfl⟩

/-- A fraction has no exponent to move. -/
theorem pointIntoExponent_fraction {cs : List Char} (digits : ∀ c ∈ cs, c.isDigit = true) :
    pointIntoExponent ('.' :: cs) = none := by
  have plain : cs.dropWhile (· != 'e') = [] := by
    rw [List.dropWhile_eq_nil_iff]
    intro c inside
    have digit := digits c inside
    simp only [bne_iff_ne]
    rintro rfl
    exact absurd digit (by decide)
  simp [pointIntoExponent, plain]

theorem fractionToExponent_head {cs t : List Char} (digits : ∀ c ∈ cs, c.isDigit = true)
    (found : fractionToExponent ('.' :: cs) = some t) : BeginsNumber t := by
  unfold fractionToExponent at found
  split at found
  next r split =>
    obtain ⟨-, rfl⟩ := List.cons.inj split
    dsimp only at found
    split at found
    · cases found
    · obtain rfl := Option.some.inj found
      cases kept : r.dropWhile (· == '0') with
      | nil => simp_all
      | cons c rest =>
        have inside : c ∈ r := List.dropWhile_subset _ (by rw [kept]; simp)
        exact ⟨c, _, rfl, Or.inl (digits c (by simp [inside]))⟩
  · cases found

theorem withoutPlus_head {c : Char} (other : c ≠ 'e') (cs : List Char) :
    ∃ rest, withoutPlus (c :: cs) = c :: rest := by
  refine ⟨withoutPlus cs, ?_⟩
  cases cs <;> simp [withoutPlus, other]

/-- The other spellings of a number that is usually written as `s`. -/
def spellings (x : Double) (s : List Char) : List (List Char) :=
  (if x.isWhole then [x.hexText.toList] else []) ++
    [fractionToExponent s, zerosToExponent s, pointIntoExponent s].filterMap id

theorem mem_spellings {x : Double} {s t : List Char} (inside : t ∈ x.spellings s) :
    (∃ rest, t = '0' :: 'x' :: rest) ∨ fractionToExponent s = some t ∨ zerosToExponent s = some t ∨
      pointIntoExponent s = some t := by
  rcases List.mem_append.mp inside with hex | moved
  · split at hex
    · obtain rfl := List.mem_singleton.mp hex
      exact Or.inl ⟨_, by simp only [hexText, String.toList_append]; rfl⟩
    · cases hex
  · obtain ⟨o, listed, same⟩ := List.mem_filterMap.mp moved
    obtain rfl : o = some t := same
    simp only [List.mem_cons, List.not_mem_nil, or_false] at listed
    exact Or.inr (listed.imp Eq.symm (Or.imp Eq.symm Eq.symm))

theorem spelling_beginsNumber {x : Double} {s t : List Char} (usual : NumberText s)
    (chosen : t = withoutPlus (withoutLeadingZero s) ∨
      t ∈ x.spellings (withoutLeadingZero s) ∧
        t.length < (withoutPlus (withoutLeadingZero s)).length) : BeginsNumber t := by
  cases usual with
  | @digit c cs digit nonzero =>
    have same : withoutLeadingZero (c :: cs) = c :: cs := by simp [withoutLeadingZero, nonzero]
    have other : c ≠ 'e' ∧ c ≠ '.' := by
      refine ⟨?_, ?_⟩ <;> rintro rfl <;> exact absurd digit (by decide)
    have begins : ∀ {u : List Char}, (∃ rest, u = c :: rest) → BeginsNumber u := by
      rintro u ⟨rest, rfl⟩
      exact ⟨c, rest, rfl, Or.inl digit⟩
    rw [same] at chosen
    rcases chosen with rfl | ⟨inside, -⟩
    · exact begins (withoutPlus_head other.1 cs)
    · rcases mem_spellings inside with ⟨rest, rfl⟩ | fraction | zeros | point
      · exact ⟨'0', _, rfl, Or.inl rfl⟩
      · simp [fractionToExponent, other.2] at fraction
      · exact begins (zerosToExponent_head nonzero zeros)
      · exact begins (pointIntoExponent_head other.2 point)
  | zero =>
    -- no other spelling is shorter than one character
    rcases chosen with rfl | ⟨inside, shorter⟩
    · exact ⟨'0', [], rfl, Or.inl rfl⟩
    · obtain rfl : t = [] := List.length_eq_zero_iff.mp (Nat.lt_one_iff.mp shorter)
      rcases mem_spellings inside with ⟨rest, hex⟩ | fraction | zeros | point
      · cases hex
      · cases fraction
      · exact absurd zeros (by decide)
      · exact absurd point (by decide)
  | @fraction cs digits =>
    have same : withoutLeadingZero ('0' :: '.' :: cs) = '.' :: cs := rfl
    have begins : ∀ {u : List Char}, (∃ rest, u = '.' :: rest) → BeginsNumber u := by
      rintro u ⟨rest, rfl⟩
      exact ⟨'.', rest, rfl, Or.inr rfl⟩
    rw [same] at chosen
    rcases chosen with rfl | ⟨inside, -⟩
    · exact begins (withoutPlus_head (by decide) cs)
    · rcases mem_spellings inside with ⟨rest, rfl⟩ | fraction | zeros | point
      · exact ⟨'0', _, rfl, Or.inl rfl⟩
      · exact fractionToExponent_head digits fraction
      · exact begins (zerosToExponent_head (by decide) zeros)
      · simp [pointIntoExponent_fraction digits] at point

theorem NumberText.beginsNumber {s : List Char} (usual : NumberText s) : BeginsNumber s := by
  cases usual with
  | digit digit nonzero => exact ⟨_, _, rfl, Or.inl digit⟩
  | zero => exact ⟨'0', [], rfl, Or.inl rfl⟩
  | fraction digits => exact ⟨'0', _, rfl, Or.inl rfl⟩

/-- A finite number that is not negative is printed with a digit or a point first. -/
theorem literal_beginsNumber {x : Double} (nan : x.isNaN = false) (finite : x.isInfinite = false)
    (positive : x.isNegative = false) : BeginsNumber x.literal.toList := by
  have usual := scriptText_numberText nan finite positive
  unfold literal
  dsimp only
  split
  · exact NumberText.beginsNumber usual
  · rw [String.toList_ofList]
    exact spelling_beginsNumber usual (shortestText_cases _ (x.spellings _))

end Double

/-- No name begins with a digit. -/
theorem isStart_of_isDigit {c : Char} (digit : c.isDigit = true) : NameChar.isStart c = false := by
  have code : c.toNat ∈ List.range' 48 10 := by
    simp only [Char.isDigit, Bool.and_eq_true, decide_eq_true_eq, UInt32.le_iff_toNat_le] at digit
    exact List.mem_range'_1.mpr ⟨digit.1, Nat.lt_succ_of_le digit.2⟩
  have all : ∀ n ∈ List.range' 48 10, NameChar.isStart (Char.ofNat n) = false := by decide
  rw [← Char.ofNat_toNat c]
  exact all _ code

theorem Dotted.of_beginsNumber {t : List Char} (begins : Double.BeginsNumber t) : ¬ Dotted t := by
  intro dotted
  obtain ⟨c, cs, rfl, number⟩ := begins
  obtain ⟨d, ds, same, start⟩ := dotted.exists_head
  obtain ⟨rfl, -⟩ := List.cons.inj same
  rcases number with digit | rfl
  · simp [isStart_of_isDigit digit] at start
  · exact absurd start (by decide)

end Splice
