import Splice.Token.Scan

/-!
# Words without dots

Names are made of characters of names, whether these stand in the text or are written as escapes, so
the words among the tokens have no dot in them. The readers of words and literals yield neither marks
nor the end of the text.
-/
namespace Splice

/-- Neither a mark nor the end of the text, and no word with a dot in it. -/
def TokenKind.IsText : TokenKind → Prop
  | word w => '.' ∉ w.toList
  | punct _ | eof => False
  | _ => True

theorem TokenKind.IsText.tidy {k : TokenKind} (isText : k.IsText) : k.Tidy := by
  cases k with
  | word w => exact isText
  | _ => trivial

theorem TokenKind.IsText.ne_punct {k : TokenKind} (isText : k.IsText) (p : Punct) :
    k ≠ .punct p := by
  rintro rfl
  exact isText

theorem TokenKind.IsText.ne_eof {k : TokenKind} (isText : k.IsText) : k ≠ .eof := by
  rintro rfl
  exact isText

/-! ## Names -/

theorem ne_dot_of_isPart {c : Char} (isPart : NameChar.isPart c = true) : '.' ≠ c := by
  rintro rfl
  exact absurd isPart (by decide)

theorem ne_dot_of_isStart {c : Char} (isStart : NameChar.isStart c = true) : '.' ≠ c := by
  rintro rfl
  exact absurd isStart (by decide)

theorem readWordFrom_tidy {fuel count : Nat} {cs text : List Char}
    {read : List Char × List Char × Nat} (tidy : '.' ∉ text)
    (ok : readWordFrom fuel cs text count = .ok read) : '.' ∉ read.1 := by
  fun_induction readWordFrom fuel cs text count with
  | case2 text count fuel r p found c accepted part ih =>
    refine ih (List.not_mem_cons_of_ne_of_not_mem ?_ tidy) ok
    -- the first character has to begin a name, the others to continue it
    simp only [accepted] at part
    split at part
    · exact ne_dot_of_isStart part
    · exact ne_dot_of_isPart part
  | case6 _ _ _ _ _ _ _ part ih =>
    exact ih (List.not_mem_cons_of_ne_of_not_mem (ne_dot_of_isPart part) tidy) ok
  | case7 | case8 =>
    cases ok
    simpa using tidy
  | _ => cases ok

theorem readName_tidy {fuel : Nat} {cs : List Char} {read : List Char × List Char × Nat × Bool}
    (ok : readName fuel cs = .ok read) : '.' ∉ read.1 := by
  have plain : '.' ∉ cs.takeWhile NameChar.isPart := fun dot =>
    ne_dot_of_isPart (List.all_eq_true.mp List.all_takeWhile _ dot) rfl
  unfold readName at ok
  dsimp only at ok
  split at ok
  next r _ =>
    cases read' : readWordFrom (fuel + 1) ('\\' :: r) (cs.takeWhile NameChar.isPart).reverse
        (cs.takeWhile NameChar.isPart).length with
    | error f =>
      rw [read'] at ok
      cases ok
    | ok word =>
      rw [read'] at ok
      cases ok
      exact readWordFrom_tidy (by simpa using plain) read'
  next =>
    cases ok
    exact plain

/-! ## Tokens -/

theorem readWord_isText (fuel : Nat) (cs : List Char) : (readWord fuel cs).kind.IsText := by
  unfold readWord
  split
  next text rest count escaped ok =>
    intro dot
    rw [String.toList_ofList] at dot
    exact readName_tidy ok dot
  next => trivial

theorem endNumber_isText {kind : TokenKind} (rest : List Char) (count : Nat) (isText : kind.IsText) :
    (endNumber kind rest count).kind.IsText := by
  unfold endNumber
  split
  · split
    · trivial
    · exact isText
  · exact isText

theorem readExponent_isText (spelling : NumberSpelling) (digits : List Char) (scale : Int)
    (cs : List Char) (count : Nat) : (readExponent spelling digits scale cs count).ended.kind.IsText :=
  endNumber_isText _ _ trivial

theorem readFraction_isText (digits : List Char) (needed : Bool) (cs : List Char) (count : Nat) :
    (readFraction digits needed cs count).kind.IsText := by
  simp only [readFraction, Lexeme.after]
  split
  · exact readExponent_isText ..
  · exact readExponent_isText ..
  · exact endNumber_isText _ _ trivial

theorem readAfterDigits_isText (digits rest : List Char) (count : Nat) :
    (readAfterDigits digits rest count).kind.IsText := by
  unfold readAfterDigits
  split
  · exact readFraction_isText ..
  · exact readExponent_isText ..
  · exact readExponent_isText ..
  · exact endNumber_isText _ _ trivial
  · exact endNumber_isText _ _ trivial

theorem readBased_isText (base : Nat) (spelling : NumberSpelling) (ok : Char → Bool)
    (cs : List Char) : (readBased base spelling ok cs).kind.IsText := by
  simp only [readBased]
  split
  · trivial
  · split
    · exact endNumber_isText _ _ trivial
    · exact endNumber_isText _ _ trivial

theorem readLegacy_isText (cs : List Char) : (readLegacy cs).kind.IsText := by
  simp only [readLegacy]
  split
  · exact endNumber_isText _ _ trivial
  · split
    · exact readFraction_isText ..
    · trivial
    · exact endNumber_isText _ _ trivial

theorem readDigits_isText (cs : List Char) : (readDigits cs).kind.IsText := by
  fun_cases readDigits cs <;>
    first
    | trivial
    | exact readBased_isText ..
    | exact readLegacy_isText _
    | exact readAfterDigits_isText ..

theorem Lexeme.withText_isText {l : Lexeme} (isText : l.kind.IsText) (cs : List Char) :
    (l.withText cs).kind.IsText := by
  unfold withText
  split
  · trivial
  · exact isText

theorem readNumber_isText (cs : List Char) : (readNumber cs).kind.IsText := by
  unfold readNumber
  split
  · exact Lexeme.withText_isText (readFraction_isText ..) _
  · exact Lexeme.withText_isText (readDigits_isText _) _

theorem readStringFrom_isText (quote : Char) (fuel : Nat) (cs : List Char) (run : StringRun) :
    (readStringFrom quote fuel cs run).kind.IsText := by
  induction fuel generalizing cs run with
  | zero => trivial
  | succ fuel ih =>
    cases cs with
    | nil => trivial
    | cons c r =>
      unfold readStringFrom
      repeat' split
      all_goals first | trivial | exact ih ..

theorem readTemplateFrom_isText (opening : Bool) (fuel : Nat) (cs : List Char) (run : TemplateRun) :
    (readTemplateFrom opening fuel cs run).kind.IsText := by
  induction fuel generalizing cs run with
  | zero => trivial
  | succ fuel ih =>
    cases cs with
    | nil => trivial
    | cons c r =>
      unfold readTemplateFrom
      repeat' split
      all_goals first | trivial | exact ih ..

theorem readTemplate_isText (opening : Bool) (fuel : Nat) (cs : List Char) :
    (readTemplate opening fuel cs).kind.IsText :=
  readTemplateFrom_isText ..

theorem readRegexp_isText (cs : List Char) : (readRegexp cs).kind.IsText := by
  unfold readRegexp
  split <;> trivial

theorem readPrivateName_isText (fuel : Nat) (cs : List Char) :
    (readPrivateName fuel cs).kind.IsText := by
  unfold readPrivateName
  split
  · split
    · split <;> trivial
    · trivial
  · trivial

end Splice
