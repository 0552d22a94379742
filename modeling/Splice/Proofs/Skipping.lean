import Mathlib
import Splice.Grammar.State

/-!
# What lies between tokens

Comments are only collected: which token comes next does not depend on those met before. Nor does it
depend on whether the text is a script, unless a comment of an old document stands there.
-/
namespace Splice

variable {input : Source}

/-! ## Skipping -/

/-- The same has been skipped, up to the comments that have been collected. -/
structure Skipped.Like (a b : Skipped) : Prop where
  rest : a.rest = b.rest
  pos : a.pos = b.pos
  fresh : a.fresh = b.fresh
  pure : a.pure = b.pure
  inert : a.inert = b.inert
  problem : a.problem = b.problem

namespace Skipped.Like

variable {a b : Skipped} (like : a.Like b)

include like

theorem move (n : Nat) : (a.move n).Like (b.move n) :=
  { like with pos := congrArg (· + n) like.pos }

theorem newline : a.newline.Like b.newline := { like with fresh := rfl }

theorem comment (start : Nat) (text : List Char) (isBlock : Bool) :
    (a.comment start text isBlock).Like (b.comment start text isBlock) :=
  { like with
    fresh := congrArg (· || !isBlock) like.fresh
    pure := congrArg (· || _) like.pure
    inert := congrArg (· || _) like.inert }

end Skipped.Like

/-- Skipping does the same whatever has been collected before. -/
theorem skipFrom_like (script : Bool) (mode : SkipMode) (cs : List Char) {a b : Skipped}
    (like : a.Like b) : (skipFrom script mode cs a).Like (skipFrom script mode cs b) := by
  fun_induction skipFrom script mode cs a generalizing b with
  | case1 s =>
    rw [skipFrom]
    exact { like with rest := rfl }
  | case2 s r ih =>
    rw [skipFrom, ← like.pos]
    exact ih (like.move 2)
  | case3 s r ih =>
    rw [skipFrom, ← like.pos]
    exact ih (like.move 2)
  | case4 s c r line block blank ih =>
    rw [skipFrom, if_pos blank]
    exact ih (like.move 1)
    · exact line
    · exact block
  | case5 s c r line block blank ends ih =>
    rw [skipFrom, if_neg blank, if_pos ends]
    exact ih (like.newline.move 1)
    · exact line
    · exact block
  | case6 s c r line block blank ends old ih =>
    rw [skipFrom, if_neg blank, if_neg ends, if_pos old, if_pos old, ← like.pos]
    exact ih (like.move 1)
    · exact line
    · exact block
  | case7 s c r line block blank ends old older ih =>
    rw [skipFrom, if_neg blank, if_neg ends, if_neg old, if_neg old, if_pos older, ← like.fresh,
      if_pos older, ← like.pos]
    exact ih (like.move 1)
    · exact line
    · exact block
  | case8 s c r line block blank ends old older =>
    rw [skipFrom, if_neg blank, if_neg ends, if_neg old, if_neg old, if_neg older, ← like.fresh,
      if_neg older]
    exact { like with rest := rfl, fresh := rfl }
    · exact line
    · exact block
  | case9 start text s =>
    rw [skipFrom]
    exact { like.comment start text false with rest := rfl }
  | case10 start text s c r ends ih =>
    rw [skipFrom, if_pos ends]
    exact ih ((like.comment start text false).newline.move 1)
  | case11 start text s c r within ih =>
    rw [skipFrom, if_neg within]
    exact ih (like.move 1)
  | case12 start text s =>
    rw [skipFrom]
    exact { like with rest := rfl, problem := rfl }
  | case13 start text s r ih =>
    rw [skipFrom]
    exact ih ((like.comment start _ true).move 2)
  | case14 start text s c r inside s' =>
    rename_i ih
    rw [skipFrom]
    · refine ih (Skipped.Like.move ?_ 1)
      unfold s'
      split
      · exact { like with fresh := rfl }
      · exact like
    · exact inside

/-- Where no comment of an old document follows, scripts skip what other texts skip. -/
theorem skipFrom_script (mode : SkipMode) (cs : List Char) (s : Skipped)
    (old : startsWith (skipFrom false mode cs s).rest "<!--" = false)
    (older : startsWith (skipFrom false mode cs s).rest "-->" = false) :
    skipFrom true mode cs s = skipFrom false mode cs s := by
  fun_induction skipFrom false mode cs s with
  | case1 s => rw [skipFrom]
  | case2 s r ih | case3 s r ih =>
    rw [skipFrom]
    exact ih old older
  | case4 s c r line block blank ih =>
    rw [skipFrom, if_pos blank]
    exact ih old older
    · exact line
    · exact block
  | case5 s c r line block blank ends ih =>
    rw [skipFrom, if_neg blank, if_pos ends]
    exact ih old older
    · exact line
    · exact block
  | case6 s c r line block blank ends no => cases no
  | case7 s c r line block blank ends no no' => cases no'
  | case8 s c r line block blank ends no no' =>
    simp only [Bool.false_and, Bool.false_eq_true, if_false] at old older
    rw [skipFrom, if_neg blank, if_neg ends]
    · simp [old, older]
    · exact line
    · exact block
  | case9 start text s => rw [skipFrom]
  | case10 start text s c r ends ih =>
    rw [skipFrom, if_pos ends]
    exact ih old older
  | case11 start text s c r within ih =>
    rw [skipFrom, if_neg within]
    exact ih old older
  | case12 start text s => rw [skipFrom]
  | case13 start text s r ih =>
    rw [skipFrom]
    exact ih old older
  | case14 start text s c r inside s' =>
    rename_i ih
    rw [skipFrom]
    · exact ih old older
    · exact inside

/-- A character that neither is a blank nor begins a comment. -/
def beginsToken (c : Char) : Bool :=
  !Blank.isSourceBlank c && !Blank.isLineEnd c && c != '/' && c != '<' && c != '-'

/-- Where a token begins nothing is skipped. -/
theorem skipFrom_here (script : Bool) {c : Char} (begins : beginsToken c = true) (r : List Char)
    (s : Skipped) : skipFrom script .between (c :: r) s = { s with rest := c :: r } := by
  simp only [beginsToken, Bool.and_eq_true, Bool.not_eq_true', bne_iff_ne] at begins
  obtain ⟨⟨⟨⟨blank, ends⟩, slash⟩, angle⟩, minus⟩ := begins
  rw [skipFrom, blank, ends]
  · simp [startsWith, angle.symm, minus.symm]
  · rintro r rfl -
    exact slash rfl
  · rintro r rfl -
    exact slash rfl

/-! ## Tokens -/

theorem scanToken_here (script : Bool) {c : Char} (begins : beginsToken c = true) (fuel : Nat)
    (r : List Char) (pos : Nat) (trivia : Trivia) (fresh : Bool) :
    scanToken script fuel (c :: r) pos trivia fresh =
      .ofLexeme (readLexeme fuel pos (c :: r)) pos trivia fresh false false [] := by
  rw [scanToken, skipFrom_here script begins]

/-- The same token has been read, up to the comments that have been collected. -/
structure Scanned.Like (a b : Scanned) : Prop where
  token : a.token = b.token
  rest : a.rest = b.rest
  pos : a.pos = b.pos
  problems : a.problems = b.problems

theorem scanToken_like (script : Bool) (fuel : Nat) (rest : List Char) (pos : Nat) (fresh : Bool)
    (trivia trivia' : Trivia) : (scanToken script fuel rest pos trivia fresh).Like
      (scanToken script fuel rest pos trivia' fresh) := by
  have like := skipFrom_like script .between rest
    (a := { rest, pos, trivia, fresh }) (b := { rest, pos, trivia := trivia', fresh })
    ⟨rfl, rfl, rfl, rfl, rfl, rfl⟩
  unfold scanToken
  simp only [← like.problem, ← like.rest, ← like.pos, ← like.fresh, ← like.pure, ← like.inert]
  split <;> exact ⟨rfl, rfl, rfl, rfl⟩

/-- A comment of an old document begins like an operator. -/
theorem readLexeme_old {cs : List Char} (fuel pos : Nat)
    (old : startsWith cs "<!--" = true ∨ startsWith cs "-->" = true) :
    (readLexeme fuel pos cs).kind = .punct .lt ∨
      (readLexeme fuel pos cs).kind = .punct .minusMinus := by
  rcases old with old | old
  · left
    obtain ⟨r, rfl⟩ : ∃ r, cs = "<!--".toList ++ r := by
      obtain ⟨r, same⟩ := List.isPrefixOf_iff_prefix.mp old
      exact ⟨r, same.symm⟩
    have start : NameChar.isStart '<' = false := by decide
    change (readLexeme fuel pos ('<' :: '!' :: '-' :: '-' :: r)).kind = _
    rw [readLexeme, start]
    rfl
  · right
    obtain ⟨r, rfl⟩ : ∃ r, cs = "-->".toList ++ r := by
      obtain ⟨r, same⟩ := List.isPrefixOf_iff_prefix.mp old
      exact ⟨r, same.symm⟩
    have start : NameChar.isStart '-' = false := by decide
    change (readLexeme fuel pos ('-' :: '-' :: '>' :: r)).kind = _
    rw [readLexeme, start]
    rfl

/-- A token that no comment of an old document can be mistaken for is read in scripts as well. -/
theorem scanToken_script {fuel pos : Nat} {rest : List Char} {trivia : Trivia} {fresh : Bool}
    (angle : (scanToken false fuel rest pos trivia fresh).token.kind ≠ .punct .lt)
    (minus : (scanToken false fuel rest pos trivia fresh).token.kind ≠ .punct .minusMinus)
    (script : Bool) :
    scanToken script fuel rest pos trivia fresh = scanToken false fuel rest pos trivia fresh := by
  let left := (skipFrom false .between rest { rest, pos, trivia, fresh }).rest
  have plain : ¬ (startsWith left "<!--" = true ∨ startsWith left "-->" = true) := by
    intro old
    have sound : (skipFrom false .between rest { rest, pos, trivia, fresh }).problem = none := by
      rcases skipFrom_problem false .between rest { rest, pos, trivia, fresh } with same | ended
      · exact same
      · simp [left, ended, startsWith] at old
    simp only [scanToken, sound, Scanned.ofLexeme] at angle minus
    rcases readLexeme_old _ _ old with kind | kind
    · exact angle kind
    · exact minus kind
  cases script with
  | false => rfl
  | true =>
    rw [not_or, Bool.not_eq_true, Bool.not_eq_true] at plain
    rw [scanToken, skipFrom_script _ _ _ plain.1 plain.2, ← scanToken]

/-! ## States -/

/-- Two states of one text that stand at the same token and have found the same faults. -/
structure ReadState.Beside (s t : ReadState input) : Prop where
  language : s.language = t.language
  size : s.size = t.size
  rest : s.rest = t.rest
  pos : s.pos = t.pos
  token : s.token = t.token
  tokenProblems : s.tokenProblems = t.tokenProblems
  problems : s.problems = t.problems

/-- Such states in the same context: one is where the other has stepped back to. -/
structure ReadState.Back (s t : ReadState input) : Prop extends s.Beside t where
  context : s.context = t.context

/-- States beside each other that know of the same shorthand properties with default values. -/
structure ReadState.Like (s t : ReadState input) : Prop extends s.Beside t where
  defaults : s.defaults = t.defaults

namespace ReadState

variable {s t u : ReadState input}

namespace Beside

theorem refl (s : ReadState input) : s.Beside s := ⟨rfl, rfl, rfl, rfl, rfl, rfl, rfl⟩

theorem trans (first : s.Beside t) (second : t.Beside u) : s.Beside u where
  language := first.language.trans second.language
  size := first.size.trans second.size
  rest := first.rest.trans second.rest
  pos := first.pos.trans second.pos
  token := first.token.trans second.token
  tokenProblems := first.tokenProblems.trans second.tokenProblems
  problems := first.problems.trans second.problems

theorem kind (beside : s.Beside t) : s.token.kind = t.token.kind := congrArg Token.kind beside.token

/-- Moving on leads to the same place again. -/
theorem advance (beside : s.Beside t) : (Read.advance s).Beside (Read.advance t) := by
  have same : scanToken s.language.script (s.size - s.pos) s.rest s.pos s.trivia false =
      scanToken t.language.script (t.size - t.pos) t.rest t.pos s.trivia false := by
    rw [beside.language, beside.size, beside.pos, beside.rest]
  have scanned := scanToken_like t.language.script (t.size - t.pos) t.rest t.pos false s.trivia
    t.trivia
  exact {
    language := beside.language
    size := beside.size
    rest := (congrArg Scanned.rest same).trans scanned.rest
    pos := (congrArg Scanned.pos same).trans scanned.pos
    token := (congrArg Scanned.token same).trans scanned.token
    tokenProblems := by
      change (Scanned.problems _).reverse ++ s.tokenProblems = _
      rw [same, scanned.problems, beside.tokenProblems]
      rfl
    problems := beside.problems }

end Beside

namespace Back

theorem restore (s u : ReadState input) : (Read.restore s u).Back s :=
  ⟨⟨rfl, rfl, rfl, rfl, rfl, rfl, rfl⟩, rfl⟩

theorem advance (back : s.Back t) : (Read.advance s).Back (Read.advance t) where
  toBeside := back.toBeside.advance
  context := back.context

end Back

namespace Like

theorem trans (first : s.Like t) (second : t.Like u) : s.Like u where
  toBeside := first.toBeside.trans second.toBeside
  defaults := first.defaults.trans second.defaults

theorem advance (like : s.Like t) : (Read.advance s).Like (Read.advance t) where
  toBeside := like.toBeside.advance
  defaults := like.defaults

end Like

end ReadState

end Splice
