import Splice.Token.Tidy

/-!
# Where tokens stand

A token takes up as many characters as it is counted for, and what is left to be read is the end of
the text from there on. The readers of single parts, such as digits and escapes, are shown to count
right first, and then the tokens that are made of them.
-/
namespace Splice

/-- Taking `count` characters off a text leaves `rest`. -/
structure Leaves (text : List Char) (count : Nat) (rest : List Char) : Prop where
  suffix : rest <:+ text
  length : count + rest.length = text.length

namespace Leaves

variable {text mid rest cs : List Char} {m n : Nat} {c : Char}

theorem refl (text : List Char) : Leaves text 0 text := ⟨List.suffix_refl text, Nat.zero_add _⟩

theorem trans (first : Leaves text m mid) (second : Leaves mid n rest) :
    Leaves text (m + n) rest where
  suffix := second.suffix.trans first.suffix
  length := by rw [Nat.add_assoc, second.length, first.length]

theorem next (taken : Leaves text n (c :: rest)) : Leaves text (n + 1) rest where
  suffix := (List.suffix_cons c rest).trans taken.suffix
  length := by rw [← taken.length, List.length_cons, Nat.add_assoc, Nat.add_comm 1]

/-- The text may begin with one more character. -/
theorem cons (taken : Leaves text n rest) (c : Char) : Leaves (c :: text) (n + 1) rest where
  suffix := taken.suffix.trans (List.suffix_cons c text)
  length := by rw [List.length_cons, ← taken.length, Nat.add_right_comm]

theorem append (front : List Char) (taken : Leaves text n (front ++ rest)) :
    Leaves text (n + front.length) rest where
  suffix := (List.suffix_append front rest).trans taken.suffix
  length := by rw [← taken.length, List.length_append, Nat.add_assoc]

theorem take_drop (taken : Leaves text n cs) (bound : m ≤ cs.length) :
    Leaves text (n + m) (cs.drop m) := by
  refine taken.trans ⟨List.drop_suffix m cs, ?_⟩
  rw [List.length_drop]
  omega

theorem run (taken : Leaves text n cs) (p : Char → Bool) :
    Leaves text (n + (cs.takeWhile p).length) (cs.dropWhile p) := by
  refine append (cs.takeWhile p) ?_
  rwa [List.takeWhile_append_dropWhile]

theorem count_eq (taken : Leaves text m rest) (same : m = n) : Leaves text n rest := same ▸ taken

end Leaves

variable {text cs : List Char} {count : Nat}

/-! ## Digits -/

theorem digitRun_leaves (ok : Char → Bool) (cs : List Char) :
    Leaves cs (digitRun ok cs).count (digitRun ok cs).rest := by
  fun_induction digitRun ok cs with
  | case1 d r _ run ih => exact (ih.cons d).cons '_'
  | case2 d r => exact (Leaves.refl _).next
  | case3 => exact (Leaves.refl _).next
  | case4 c r _ _ _ run ih => exact ih.cons c
  | case5 | case6 => exact .refl _

theorem digitRun1_leaves (ok : Char → Bool) (cs : List Char) :
    Leaves cs (digitRun1 ok cs).count (digitRun1 ok cs).rest := by
  unfold digitRun1
  split
  · split
    · exact digitRun_leaves ok _
    · exact .refl _
  · exact .refl _

theorem endNumber_leaves {rest : List Char} (taken : Leaves text count rest) (kind : TokenKind) :
    Leaves text (endNumber kind rest count).count (endNumber kind rest count).rest := by
  unfold endNumber
  split
  · split
    · exact taken.next.run _
    · exact taken
  · exact taken

theorem ended_leaves {l : Lexeme} (taken : Leaves text l.count l.rest) :
    Leaves text l.ended.count l.ended.rest :=
  endNumber_leaves taken l.kind

theorem readExponent_leaves (taken : Leaves text count cs) (spelling : NumberSpelling)
    (digits : List Char) (scale : Int) :
    Leaves text (readExponent spelling digits scale cs count).count
      (readExponent spelling digits scale cs count).rest := by
  unfold readExponent
  split
  next sign r n same =>
    have signed : Leaves text (count + n) r := by
      split at same
      · cases same
        exact taken.next
      · cases same
        exact taken.next
      · cases same
        exact taken
    exact signed.trans (digitRun1_leaves ..)

theorem readFraction_leaves (taken : Leaves text count cs) (digits : List Char) (needed : Bool) :
    Leaves text (readFraction digits needed cs count).count
      (readFraction digits needed cs count).rest := by
  unfold readFraction Lexeme.after
  extract_lets startsDigit run all scale total
  have digits : Leaves text total run.rest := by
    refine taken.trans ?_
    unfold run
    split
    · exact digitRun_leaves ..
    · split
      · exact digitRun1_leaves ..
      · exact .refl _
  dsimp only
  split
  next r same => exact ended_leaves (readExponent_leaves (same ▸ digits).next ..)
  next r same => exact ended_leaves (readExponent_leaves (same ▸ digits).next ..)
  next => exact endNumber_leaves digits _

theorem readAfterDigits_leaves (taken : Leaves text count cs) (digits : List Char) :
    Leaves text (readAfterDigits digits cs count).count (readAfterDigits digits cs count).rest := by
  unfold readAfterDigits
  split
  · exact readFraction_leaves taken.next ..
  · exact ended_leaves (readExponent_leaves taken.next ..)
  · exact ended_leaves (readExponent_leaves taken.next ..)
  · exact endNumber_leaves taken.next _
  · exact endNumber_leaves taken _

/-- The mark of the base has two characters. -/
theorem readBased_leaves (taken : Leaves text 2 cs) (base : Nat) (spelling : NumberSpelling)
    (ok : Char → Bool) :
    Leaves text (readBased base spelling ok cs).count (readBased base spelling ok cs).rest := by
  have digits : Leaves text ((digitRun1 ok cs).count + 2) (digitRun1 ok cs).rest :=
    (taken.trans (digitRun1_leaves ok cs)).count_eq (Nat.add_comm ..)
  simp only [readBased]
  split
  · exact digits
  · split
    next r same => exact endNumber_leaves (same ▸ digits).next _
    next => exact endNumber_leaves digits _

theorem readLegacy_leaves (cs : List Char) :
    Leaves cs (readLegacy cs).count (readLegacy cs).rest := by
  have digits : Leaves cs (cs.takeWhile Char.isDigit).length (cs.dropWhile Char.isDigit) :=
    ((Leaves.refl cs).run _).count_eq (Nat.zero_add _)
  simp only [readLegacy]
  split
  · exact endNumber_leaves digits _
  · split
    next r same => exact readFraction_leaves (same ▸ digits).next ..
    next r same => exact readExponent_leaves (same ▸ digits).next ..
    next => exact endNumber_leaves digits _

theorem readDigits_leaves (cs : List Char) :
    Leaves cs (readDigits cs).count (readDigits cs).rest := by
  have mark {a b : Char} {r : List Char} : Leaves (a :: b :: r) 2 r := (Leaves.refl _).next.next
  fun_cases readDigits cs <;>
    first
    | exact readBased_leaves mark ..
    | exact readExponent_leaves mark ..
    | exact readLegacy_leaves _
    | exact readAfterDigits_leaves (Leaves.refl _).next _
    | exact readAfterDigits_leaves (digitRun_leaves ..) _

theorem withText_leaves {l : Lexeme} (taken : Leaves text l.count l.rest) (written : List Char) :
    Leaves text (l.withText written).count (l.withText written).rest := by
  unfold Lexeme.withText
  split <;> exact taken

theorem readNumber_leaves (cs : List Char) :
    Leaves cs (readNumber cs).count (readNumber cs).rest := by
  unfold readNumber
  split
  · exact withText_leaves (readFraction_leaves (Leaves.refl _).next ..) _
  · exact withText_leaves (readDigits_leaves _) _

/-! ## Escapes -/

theorem readFourHex_leaves {r : Nat × List Char} (read : readFourHex cs = some r) :
    Leaves cs 4 r.2 := by
  unfold readFourHex at read
  split at read
  · split at read
    · cases read
      exact (Leaves.refl _).next.next.next.next
    · cases read
  · cases read

theorem readBraced_leaves {p : CodePoint} (read : readBraced cs = some p) :
    Leaves cs p.taken p.rest := by
  have digits := (Leaves.refl cs).run isHexDigit
  rw [Nat.zero_add] at digits
  unfold readBraced at read
  dsimp only at read
  split at read
  next rest same =>
    split at read
    · cases read
    · cases read
      exact (same ▸ digits).next
  · cases read

theorem readCodePoint_leaves {p : CodePoint} (read : readCodePoint cs = some p) :
    Leaves cs p.taken p.rest := by
  unfold readCodePoint at read
  split at read
  · obtain ⟨q, braced, rfl⟩ := Option.map_eq_some_iff.mp read
    exact (readBraced_leaves braced).cons '{'
  · obtain ⟨q, hex, rfl⟩ := Option.map_eq_some_iff.mp read
    exact readFourHex_leaves hex

/-- The letter before the digits is counted as well. -/
theorem readUnicodeEscape_leaves (cs : List Char) (c : Char) :
    Leaves (c :: cs) (readUnicodeEscape cs).taken (readUnicodeEscape cs).rest := by
  unfold readUnicodeEscape
  split
  · exact (Leaves.refl _).next
  next p read =>
    have single := (readCodePoint_leaves read).cons c
    dsimp only
    split
    · exact single
    next r after =>
      split
      next low rest hex =>
        split
        · rw [after] at single
          exact (single.next.next.trans (readFourHex_leaves hex)).count_eq rfl
        · exact single
      · exact single
    · exact single

theorem readOctal_leaves (first : Char) (cs : List Char) :
    Leaves (first :: cs) (readOctal first cs).taken (readOctal first cs).rest := by
  unfold readOctal
  extract_lets limit more value
  have bound : more.length ≤ cs.length :=
    Nat.le_trans (List.takeWhile_prefix _).length_le (List.length_take_le' limit cs)
  exact (Leaves.refl _).next.take_drop bound

theorem readEscape_leaves (inTemplate : Bool) (cs : List Char) :
    Leaves cs (readEscape inTemplate cs).taken (readEscape inTemplate cs).rest := by
  have one {c : Char} {r : List Char} : Leaves (c :: r) 1 r := (Leaves.refl _).next
  fun_cases readEscape inTemplate cs <;>
    first
    | exact .refl _
    | exact one
    | exact one.next
    | exact one.next.next
    | exact readUnicodeEscape_leaves ..
    | exact readOctal_leaves ..

/-! ## Strings, templates and regular expressions -/

theorem readStringFrom_leaves (quote : Char) {fuel : Nat} {run : StringRun}
    (taken : Leaves text run.count cs) :
    Leaves text (readStringFrom quote fuel cs run).count
      (readStringFrom quote fuel cs run).rest := by
  induction fuel generalizing cs run with
  | zero => exact taken
  | succ fuel ih =>
    cases cs with
    | nil => exact taken
    | cons c r =>
      unfold readStringFrom
      split
      · exact taken.next
      · split
        · exact taken
        · split
          · split
            · exact taken.next
            · exact ih (taken.next.trans (readEscape_leaves ..))
          · exact ih taken.next

theorem readTemplateFrom_leaves (opening : Bool) {fuel : Nat} {run : TemplateRun}
    (taken : Leaves text run.count cs) :
    Leaves text (readTemplateFrom opening fuel cs run).count
      (readTemplateFrom opening fuel cs run).rest := by
  induction fuel generalizing cs run with
  | zero => exact taken
  | succ fuel ih =>
    cases cs with
    | nil => exact taken
    | cons c r =>
      unfold readTemplateFrom
      split
      · exact taken.next
      · split
        next substitution =>
          have brace : 1 ≤ r.length := by
            cases r with
            | nil => exact absurd substitution (by simp)
            | cons => exact Nat.succ_pos _
          exact taken.next.take_drop brace
        · split
          · split
            · exact taken.next
            · exact ih (taken.next.trans (readEscape_leaves ..))
          · split
            · have bound : ((r.take 1).filter (· == '\n')).length ≤ r.length :=
                Nat.le_trans (List.length_filter_le ..) (List.length_take_le' 1 r)
              exact ih (taken.next.take_drop bound)
            · exact ih taken.next

theorem readString_leaves (quote : Char) (fuel : Nat) (cs : List Char) (c : Char) :
    Leaves (c :: cs) (readString quote fuel cs).count (readString quote fuel cs).rest :=
  readStringFrom_leaves quote (Leaves.refl _).next

theorem readTemplate_leaves (opening : Bool) (fuel : Nat) (cs : List Char) (c : Char) :
    Leaves (c :: cs) (readTemplate opening fuel cs).count (readTemplate opening fuel cs).rest :=
  readTemplateFrom_leaves opening (Leaves.refl _).next

theorem readRegexpBody_leaves {inClass : Bool} {acc : List Char} {read : List Char × List Char}
    (taken : Leaves text (acc.length + 1) cs) (body : readRegexpBody inClass cs acc = some read) :
    Leaves text (read.1.length + 2) read.2 := by
  fun_induction readRegexpBody inClass cs acc with
  | case1 | case2 | case3 | case5 => cases body
  | case4 _ _ _ _ _ _ _ _ ih => exact ih taken.next.next body
  | case6 _ _ _ _ _ _ _ ih => exact ih taken.next body
  | case7 _ _ _ _ _ _ _ _ ih => exact ih taken.next body
  | case8 =>
    cases body
    simpa using taken.next
  | case9 _ _ _ _ _ _ _ _ _ ih => exact ih taken.next body

theorem readRegexp_leaves (cs : List Char) (c : Char) :
    Leaves (c :: cs) (readRegexp cs).count (readRegexp cs).rest := by
  unfold readRegexp
  split
  · exact ⟨List.nil_suffix, rfl⟩
  next body r same =>
    exact (readRegexpBody_leaves (Leaves.refl _).next same).run isFlagChar

/-! ## Words -/

theorem readWordFrom_leaves (fuel : Nat) (name : List Char) (taken : Leaves text count cs) :
    match readWordFrom fuel cs name count with
    | .ok read => Leaves text read.2.2 read.2.1
    | .error f => Leaves text f.count f.rest := by
  have ofCode (p : CodePoint) {n : Nat} (taken : Leaves text n p.rest) :
      Leaves text (NameFault.ofCode p n).count (NameFault.ofCode p n).rest := by
    unfold NameFault.ofCode
    split <;> exact taken
  fun_induction readWordFrom fuel cs name count with
  | case1 => exact taken
  | case2 _ _ _ _ _ found _ _ _ ih => exact ih (taken.next.next.trans (readCodePoint_leaves found))
  | case3 _ _ _ _ p found => exact ofCode p (taken.next.next.trans (readCodePoint_leaves found))
  | case4 => exact taken.next.next
  | case5 => exact taken.next
  | case6 _ _ _ _ _ _ _ _ ih => exact ih taken.next
  | case7 | case8 => exact taken

theorem readName_leaves {fuel : Nat}
    {outcome : Except NameFault (List Char × List Char × Nat × Bool)}
    (read : readName fuel cs = outcome) :
    match outcome with
    | .ok read => Leaves cs read.2.2.1 read.2.1
    | .error f => Leaves cs f.count f.rest := by
  have plain := (Leaves.refl cs).run NameChar.isPart
  rw [Nat.zero_add] at plain
  unfold readName at read
  dsimp only at read
  split at read
  next r same =>
    have escaped := readWordFrom_leaves (fuel + 1) (cs.takeWhile NameChar.isPart).reverse
      (same ▸ plain)
    cases word : readWordFrom (fuel + 1) ('\\' :: r) (cs.takeWhile NameChar.isPart).reverse
        (cs.takeWhile NameChar.isPart).length with
    | error f =>
      rw [word] at read escaped
      cases read
      exact escaped
    | ok name =>
      rw [word] at read escaped
      cases read
      exact escaped
  next =>
    cases read
    exact plain

theorem readWord_leaves (fuel : Nat) (cs : List Char) :
    Leaves cs (readWord fuel cs).count (readWord fuel cs).rest := by
  unfold readWord
  split
  next read => exact readName_leaves read
  next read => exact readName_leaves read

/-- The mark of the name is counted as well. -/
theorem readPrivateName_leaves (fuel : Nat) (cs : List Char) (c : Char) :
    Leaves (c :: cs) (readPrivateName fuel cs).count (readPrivateName fuel cs).rest := by
  have one : Leaves (c :: cs) 1 cs := (Leaves.refl _).next
  unfold readPrivateName
  split
  · split
    · split
      next read => exact (readName_leaves read).cons c
      next read => exact (readName_leaves read).cons c
    · exact one
  · exact one

/-! ## Marks -/

/-- A mark is read where its text stands. -/
theorem readPunct_spelled {p : Punct} {rest : List Char}
    (read : readPunct cs = some (p, rest, count)) :
    cs = p.text.toList ++ rest ∧ count = p.text.toList.length := by
  unfold readPunct at read
  repeat' split at read
  all_goals cases read
  all_goals exact ⟨rfl, rfl⟩

/-- The mark that is joined begins with the closing bracket that has been read. -/
theorem joinAngle_spelled (cs : List Char) :
    '>' :: cs = (joinAngle cs).1.text.toList ++ (joinAngle cs).2.1 ∧
      (joinAngle cs).2.2 = (joinAngle cs).1.text.toList.length := by
  unfold joinAngle
  split
  all_goals dsimp only
  all_goals exact ⟨rfl, rfl⟩

/-! ## Lexemes -/

/-- The lexeme has been read off the text. -/
structure Lexeme.ReadOff (l : Lexeme) (cs : List Char) : Prop where
  tidy : l.kind.Tidy
  leaves : Leaves cs l.count l.rest
  mark : ∀ p, l.kind = .punct p → cs = p.text.toList ++ l.rest
  ends : l.kind = .eof → cs = []

namespace Lexeme.ReadOff

theorem of_end : ({ kind := .eof, rest := [], count := 0 } : Lexeme).ReadOff [] where
  tidy := trivial
  leaves := .refl []
  mark _ same := nomatch same
  ends _ := rfl

theorem of_text {l : Lexeme} (isText : l.kind.IsText) (leaves : Leaves cs l.count l.rest) :
    l.ReadOff cs where
  tidy := isText.tidy
  leaves
  mark p same := absurd same (isText.ne_punct p)
  ends same := absurd same isText.ne_eof

theorem of_punct {p : Punct} {rest : List Char} (same : cs = p.text.toList ++ rest)
    (length : count = p.text.toList.length) :
    ({ kind := .punct p, rest, count } : Lexeme).ReadOff cs where
  tidy := trivial
  leaves := by
    subst same length
    exact ((Leaves.refl _).append p.text.toList).count_eq (Nat.zero_add _)
  mark q known := by
    cases known
    exact same
  ends known := nomatch known

end Lexeme.ReadOff

theorem readTemplate_readOff (opening : Bool) (fuel : Nat) (cs : List Char) (c : Char) :
    (readTemplate opening fuel cs).ReadOff (c :: cs) :=
  .of_text (readTemplate_isText ..) (readTemplate_leaves ..)

theorem readRegexp_readOff (cs : List Char) (c : Char) : (readRegexp cs).ReadOff (c :: cs) :=
  .of_text (readRegexp_isText _) (readRegexp_leaves ..)

theorem readLexeme_readOff (fuel pos : Nat) (cs : List Char) :
    (readLexeme fuel pos cs).ReadOff cs := by
  have one {c : Char} {r : List Char} : Leaves (c :: r) 1 r := (Leaves.refl _).next
  fun_cases readLexeme fuel pos cs with
  | case1 => exact .of_end
  | case2 => exact .of_text (readWord_isText ..) (readWord_leaves ..)
  | case3 => exact .of_text (readNumber_isText _) (readNumber_leaves _)
  | case4 => exact .of_text (readStringFrom_isText ..) (readString_leaves ..)
  | case5 => exact readTemplate_readOff ..
  | case6 => exact .of_text (readNumber_isText _) (readNumber_leaves _)
  | case7 c r _ _ _ _ _ _ _ line =>
    have bound : line.length ≤ r.length := (List.takeWhile_prefix _).length_le
    exact .of_text trivial ((one.take_drop bound).count_eq (Nat.add_comm ..))
  | case8 => exact .of_text (readPrivateName_isText ..) (readPrivateName_leaves ..)
  | case9 _ _ _ _ _ _ _ _ p rest count read =>
    obtain ⟨same, length⟩ := readPunct_spelled read
    rw [read]
    exact .of_punct same length
  | case10 _ _ _ _ _ _ _ _ read =>
    rw [read]
    exact .of_text trivial one

/-! ## Tokens -/

/-- The token stands right before what is left of the text; a mark is spelled there. -/
structure Placed (text : List Char) (token : Token) (rest : List Char) (pos : Nat) : Prop where
  tidy : token.kind.Tidy
  leaves : Leaves text pos rest
  stop : token.stop = pos
  mark : ∀ p, token.kind = .punct p → Leaves text token.start (p.text.toList ++ rest)

namespace Placed

variable {token : Token} {rest after : List Char} {pos : Nat} {p q : Punct}

/-- A mark may be read as another one that begins with it, or that it begins with. -/
theorem respell (placed : Placed text token rest pos) (mark : token.kind = .punct p)
    (same : p.text.toList ++ rest = q.text.toList ++ after)
    (length : count = q.text.toList.length) :
    Placed text { token with kind := .punct q, stop := token.start + count } after
      (token.start + count) where
  tidy := trivial
  leaves := by
    rw [length]
    exact Leaves.append _ (same ▸ placed.mark p mark)
  stop := rfl
  mark r known := by
    cases known
    exact same ▸ placed.mark p mark

/-- A token may go on into the text after it. -/
theorem extend {kind : TokenKind} (placed : Placed text token rest pos) (isText : kind.IsText)
    (bound : count ≤ rest.length) :
    Placed text { token with kind, stop := token.stop + count } (rest.drop count)
      (pos + count) where
  tidy := isText.tidy
  leaves := placed.leaves.take_drop bound
  stop := congrArg (· + count) placed.stop
  mark p known := absurd known (isText.ne_punct p)

end Placed

theorem placed_ofLexeme {l : Lexeme} {pos : Nat} (taken : Leaves text pos cs) (read : l.ReadOff cs)
    (trivia : Trivia) (fresh pure inert : Bool) (problems : List Problem) :
    Placed text (Scanned.ofLexeme l pos trivia fresh pure inert problems).token
      (Scanned.ofLexeme l pos trivia fresh pure inert problems).rest
      (Scanned.ofLexeme l pos trivia fresh pure inert problems).pos where
  tidy := read.tidy
  leaves := taken.trans read.leaves
  stop := rfl
  mark p same := read.mark p same ▸ taken

theorem skipFrom_leaves {script : Bool} {mode : SkipMode} {s : Skipped}
    (taken : Leaves text s.pos cs) :
    Leaves text (skipFrom script mode cs s).pos (skipFrom script mode cs s).rest := by
  fun_induction skipFrom script mode cs s with
  | case1 | case9 | case12 => exact taken
  | case2 _ _ ih | case3 _ _ ih | case13 _ _ _ _ ih => exact ih taken.next.next
  | case4 _ _ _ _ _ _ ih | case5 _ _ _ _ _ _ _ ih | case10 _ _ _ _ _ _ ih
  | case11 _ _ _ _ _ _ ih => exact ih taken.next
  | case6 _ _ _ _ _ _ _ opens ih =>
    rw [if_pos opens]
    exact ih taken.next
  | case7 _ _ _ _ _ _ _ no opens ih =>
    rw [if_neg no, if_pos opens]
    exact ih taken.next
  | case8 _ _ _ _ _ _ _ no no' =>
    rw [if_neg no, if_neg no']
    exact taken
  | case14 _ _ old _ _ _ s ih =>
    refine ih (Leaves.count_eq taken.next ?_)
    unfold s
    split <;> rfl

/-- A fault is found at the end of the text only. -/
theorem skipFrom_problem (script : Bool) (mode : SkipMode) (cs : List Char) (s : Skipped) :
    (skipFrom script mode cs s).problem = s.problem ∨ (skipFrom script mode cs s).rest = [] := by
  fun_induction skipFrom script mode cs s with
  | case1 | case9 | case12 => exact .inr rfl
  | case6 s c r line block blank ends old ih =>
    rw [if_pos old]
    exact ih
  | case7 s c r line block blank ends old older ih =>
    rw [if_neg old, if_pos older]
    exact ih
  | case8 s c r line block blank ends old older =>
    rw [if_neg old, if_neg older]
    exact .inl rfl
  | case14 start text s c r inside s' =>
    rename_i ih
    rcases ih with same | ended
    · refine .inl (same.trans ?_)
      change s'.problem = _
      unfold s'
      split <;> rfl
    · exact .inr ended
  | _ => assumption

theorem placed_scanToken {pos : Nat} (taken : Leaves text pos cs) (script : Bool) (fuel : Nat)
    (trivia : Trivia) (fresh : Bool) :
    Placed text (scanToken script fuel cs pos trivia fresh).token
      (scanToken script fuel cs pos trivia fresh).rest
      (scanToken script fuel cs pos trivia fresh).pos := by
  unfold scanToken
  extract_lets s
  have skipped : Leaves text s.pos s.rest := skipFrom_leaves taken
  split
  next p failed =>
    have nothing : s.rest = [] := by
      rcases skipFrom_problem script .between cs { rest := cs, pos, trivia, fresh } with same | ended
      · cases failed.symm.trans same
      · exact ended
    exact placed_ofLexeme skipped (nothing ▸ .of_end) ..
  next => exact placed_ofLexeme skipped (readLexeme_readOff ..) ..

end Splice
