import Mathlib
import Splice.Proofs.Names
import Splice.Proofs.Opening
import Splice.Proofs.StringText

/-!
# Substituted strings read back

A string that is built for a place is printed between double quotes, with the characters that may
not stand there escaped. In parentheses, in any language, this text is read as the string again, so
classifying it gives back the string that was built.
-/
namespace Splice

variable {input : Source}

/-- A string is printed alone between double quotes. -/
theorem Node.render_string (s : String) (span : Span) :
    (Node.mk (.string s false) .value span []).render =
      String.ofList (Quoted.write .double false s.toList) := by
  have text : (Node.mk (.string s false) .value span []).written {} =
      ((Quoted.write .double false s.toList).reverse ++ []).reverse := by
    rw [written, alone_mk]
    rfl
  rw [render_eq, text, List.append_nil, List.reverse_reverse]

/-! ## The tokens of a written string in parentheses -/

/-- The line end and the parenthesis that close every text. -/
theorem scanToken_close (script : Bool) (fuel pos : Nat) (trivia : Trivia) :
    let r := scanToken script fuel ['\n', ')'] pos trivia false
    r.token.kind = .punct .rparen ∧ r.rest = [] ∧ r.problems = [] := by
  have start : NameChar.isStart ')' = false := by decide
  have lexeme (pos : Nat) : readLexeme fuel pos [')'] =
      { kind := .punct .rparen, rest := [], count := 1 } := by
    rw [readLexeme, start]
    rfl
  have blank : Blank.isSourceBlank '\n' = false := by decide
  have skipped (s : Skipped) : skipFrom script .between ['\n', ')'] s =
      { s.newline.move 1 with rest := [')'] } := by
    rw [skipFrom, blank, ← skipFrom_here script (c := ')') (by decide)]
    · rfl
    · intro r newline
      exact absurd newline (by decide)
    · intro r newline
      exact absurd newline (by decide)
  rw [scanToken, skipped]
  simp only [Skipped.newline, Skipped.move, lexeme]
  exact ⟨rfl, rfl, rfl⟩

namespace ReadState

variable {l : Language} {s : ReadState input} {k : TokenKind} {rest : List Char}

/-- The state stands at a token, with the rest of the text after it and no faulty token so far. -/
structure Stands (s : ReadState input) (k : TokenKind) (rest : List Char) : Prop where
  kind : s.token.kind = k
  rest : s.rest = rest
  clean : s.tokenProblems = []

theorem stands_advance {r : Scanned}
    (scanned : scanToken s.language.script (s.size - s.pos) s.rest s.pos s.trivia false = r)
    (problems : r.problems = []) (clean : s.tokenProblems = []) :
    (Read.advance s).Stands r.token.kind r.rest where
  kind := congrArg (·.token.kind) scanned
  rest := congrArg (·.rest) scanned
  clean := by
    change (scanToken ..).problems.reverse ++ s.tokenProblems = []
    rw [scanned, problems, clean]
    rfl

/-- After the parenthesis comes the string. -/
theorem Begins.advance_body {body text : List Char} (read : StringBody body text)
    (begins : s.Begins l ('\x22' :: (body ++ '\x22' :: rest))) :
    (Read.advance s).Stands (.string (String.ofList text) false) rest := by
  have enough : body.length ≤ s.size - s.pos := by
    rw [begins.size, begins.pos]
    simp only [List.length_cons, List.length_append]
    omega
  obtain ⟨escaped, lexeme⟩ := read rest _ enough
  have here := scanToken_here s.language.script (beginsToken_of_quote (c := '\x22') rfl)
    (s.size - s.pos) (body ++ '\x22' :: rest) s.pos s.trivia false
  rw [readLexeme_quote, lexeme, ← begins.rest] at here
  exact stands_advance here rfl begins.tokenProblems

/-- After the string comes the closing parenthesis. -/
theorem Stands.advance_close (stands : s.Stands k ['\n', ')']) :
    (Read.advance s).Stands (.punct .rparen) [] := by
  obtain ⟨kind, rest, problems⟩ := scanToken_close s.language.script (s.size - s.pos) s.pos s.trivia
  rw [← stands.rest] at kind rest problems
  rw [← kind, ← rest]
  exact stands_advance rfl problems stands.clean

theorem Stands.advance_end (stands : s.Stands k []) : (Read.advance s).Stands .eof [] := by
  have here : scanToken s.language.script (s.size - s.pos) s.rest s.pos s.trivia false =
      .ofLexeme { kind := .eof, rest := [], count := 0 } s.pos s.trivia false false false [] := by
    rw [stands.rest, scanToken, skipFrom]
    rfl
  exact stands_advance here rfl stands.clean

end ReadState

/-! ## Quoted texts -/

/-- A text between double quotes. -/
def doubleQuoted (body : List Char) : String := String.ofList ('\x22' :: (body ++ ['\x22']))

@[simp] theorem toList_doubleQuoted (body : List Char) :
    (doubleQuoted body).toList = '\x22' :: (body ++ ['\x22']) := String.toList_ofList

theorem isQuoted_doubleQuoted (body : List Char) : isQuoted (doubleQuoted body).toList = true := by
  simp [isQuoted]

section Body

variable {body : List Char} {s : String} (read : StringBody body s.toList)

include read

/-- What is a string between double quotes is read as this string in parentheses, in every
language. -/
theorem StringBody.parseExpression (l : Language) :
    ∃ span, Splice.parseExpression l (doubleQuoted body) =
      some (.mk (.string s false) .value span []) := by
  have chars : (inParens (doubleQuoted body)).toList =
      '(' :: '\x22' :: (body ++ '\x22' :: ['\n', ')']) := by
    rw [toList_inParens, toList_doubleQuoted]
    simp
  have begins := ReadState.initial_begins l ('\x22' :: (body ++ '\x22' :: ['\n', ')']))
  rw [← chars] at begins
  have literal := begins.advance_body read
  have close := literal.advance_close
  have ends := close.advance_end
  refine ⟨_, IsLiteral.parseExpression (isQuoted_doubleQuoted body) ⟨?_, close.kind, rfl⟩ ends.kind
    ends.clean⟩
  rw [literal.kind, String.ofList_toList]
  rfl

theorem StringBody.classify : Replacement.classify (doubleQuoted body) = .string s := by
  obtain ⟨span, parsed⟩ := read.parseExpression .plain
  rw [Replacement.classify_of_quoted (isQuoted_doubleQuoted body), Replacement.classifyQuoted, parsed]
  rfl

end Body

/-! ## Printed strings -/

theorem isQuoted_write (text : List Char) :
    isQuoted (String.ofList (Quoted.write .double false text)).toList = true :=
  isQuoted_doubleQuoted (Quoted.escapeAll .double text)

/-- A string is read from its own printed form, in every language. -/
theorem parseExpression_write (s : String) (l : Language) :
    ∃ span, parseExpression l (String.ofList (Quoted.write .double false s.toList)) =
      some (.mk (.string s false) .value span []) :=
  (StringBody.escapeAll s.toList).parseExpression l

namespace Replacement

/-- The string that is built for a place is printed as a text that is classified as the string. -/
theorem classify_render_string (s : String) (l : Language) (span : Span) :
    ∃ e, (string s).build l span = some e ∧ classify e.render = string s := by
  refine ⟨.mk (.string s false) .value span [], rfl, ?_⟩
  obtain ⟨here, read⟩ := parseExpression_write s .plain
  rw [Node.render_string, classify_of_quoted (isQuoted_write _), classifyQuoted, read]
  rfl

end Replacement

end Splice
