import Mathlib
import Splice.Define.Replacement
import Splice.Proofs.Literals

/-!
# Quoted text in parentheses

A text in quotes begins with a string, a template or text that is no token, whatever the language.
So it is read as a mere literal in one language exactly if it is in every other.
-/
namespace Splice

variable {input : Source}

/-! ## Escapes -/

/-- A half is half of a surrogate pair. -/
def TextUnit.IsSound : TextUnit → Prop
  | char _ => True
  | half n => (isHighHalf n || isLowHalf n) = true

theorem TextUnit.isSound_ofCode (n : Nat) : (ofCode n).IsSound := by
  unfold ofCode
  split
  next range => exact range
  next => trivial

/-- Decoded units hold no other halves. -/
def AllSound (us : List TextUnit) : Prop := ∀ u ∈ us, u.IsSound

namespace AllSound

variable {us vs : List TextUnit}

theorem nil : AllSound [] := by
  rintro u ⟨⟩

theorem char (c : Char) (sound : AllSound us) : AllSound (.char c :: us) := by
  rintro u inside
  rcases List.mem_cons.mp inside with rfl | old
  · trivial
  · exact sound u old

theorem reverse_append (new : AllSound us) (old : AllSound vs) : AllSound (us.reverse ++ vs) := by
  intro u inside
  rcases List.mem_append.mp inside with first | second
  · exact new u (List.mem_reverse.mp first)
  · exact old u second

theorem reverse (sound : AllSound us) : AllSound us.reverse := by
  intro u inside
  exact sound u (List.mem_reverse.mp inside)

theorem map_char (c : Char) {cooked : Option (List TextUnit)} (sound : ∀ us ∈ cooked, AllSound us) :
    ∀ us ∈ cooked.map (.char c :: ·), AllSound us := by
  intro us found
  obtain ⟨old, before, rfl⟩ := Option.mem_map.mp found
  exact (sound old before).char c

end AllSound

/-- What an escape stands for, if anything, holds no other halves. -/
def Escape.IsSound (e : Escape) : Prop := ∀ us ∈ e.units, AllSound us

namespace Escape

variable {c : Char} {rest : List Char} {taken : Nat}

theorem isSound_one : (one c rest taken).IsSound := by
  rintro us ⟨⟩
  exact .char c .nil

theorem isSound_empty : (empty rest taken).IsSound := by
  rintro us ⟨⟩
  exact .nil

theorem isSound_invalid : (invalid rest taken).IsSound := by
  rintro us ⟨⟩

end Escape

theorem readUnicodeEscape_isSound (cs : List Char) : (readUnicodeEscape cs).IsSound := by
  have single (p : CodePoint) : (Escape.mk (some [.ofCode p.code]) p.rest (p.taken + 1)).IsSound := by
    rintro us ⟨⟩ u inside
    rw [List.mem_singleton.mp inside]
    exact TextUnit.isSound_ofCode p.code
  unfold readUnicodeEscape
  split
  · exact Escape.isSound_invalid
  next p read =>
    dsimp only
    split
    · exact single p
    · split
      · split
        · exact Escape.isSound_one
        · exact single p
      · exact single p
    · exact single p

theorem readEscape_isSound (inTemplate : Bool) (cs : List Char) :
    (readEscape inTemplate cs).IsSound := by
  unfold readEscape
  repeat' split
  all_goals first
    | exact Escape.isSound_one
    | exact Escape.isSound_empty
    | exact Escape.isSound_invalid
    | exact readUnicodeEscape_isSound _

/-! ## Tokens that begin with a quote -/

/-- The token that a quote opens: it is broken off, or holds the units that have been decoded. -/
inductive TokenKind.Opened : TokenKind → Prop where
  | broken : Opened .broken
  | string {us : List TextUnit} : AllSound us →
    Opened (.string (encodeUnits us).1 (encodeUnits us).2)
  | template {part : TemplatePart} {run : TemplateRun} : part = .whole ∨ part = .head →
    (∀ us ∈ run.cooked, AllSound us) → Opened (.template part run.quasi)

/-- The form is a text that has been decoded from the units. -/
inductive Form.Decoded (us : List TextUnit) : Form → Prop where
  | string : Decoded us (.string (encodeUnits us).1 (encodeUnits us).2)
  | template (raw : String) :
    Decoded us (.template [⟨raw, some (encodeUnits us).1, (encodeUnits us).2⟩])

theorem readStringFrom_opened (quote : Char) (fuel : Nat) (cs : List Char) (run : StringRun)
    (sound : AllSound run.units) : (readStringFrom quote fuel cs run).kind.Opened := by
  induction fuel generalizing cs run with
  | zero => exact .broken
  | succ fuel ih =>
    cases cs with
    | nil => exact .broken
    | cons c r =>
      unfold readStringFrom
      split
      · exact .string sound.reverse
      · split
        · exact .broken
        · split
          · split
            · exact .broken
            · refine ih _ _ (AllSound.reverse_append ?_ sound)
              cases units : (readEscape false r).units with
              | none => exact .nil
              | some us => exact readEscape_isSound false r us units
          · exact ih _ _ (sound.char c)

theorem readTemplateFrom_opened (fuel : Nat) (cs : List Char) (run : TemplateRun)
    (sound : ∀ us ∈ run.cooked, AllSound us) :
    (readTemplateFrom true fuel cs run).kind.Opened := by
  induction fuel generalizing cs run with
  | zero => exact .broken
  | succ fuel ih =>
    cases cs with
    | nil => exact .broken
    | cons c r =>
      unfold readTemplateFrom
      split
      · exact .template (.inl rfl) sound
      · split
        · exact .template (.inr rfl) sound
        · split
          · split
            · exact .broken
            · refine ih _ _ fun us cooked => ?_
              dsimp only at cooked
              split at cooked
              next new old units before =>
                cases cooked
                exact (readEscape_isSound true r new units).reverse_append (sound old before)
              next => cases cooked
          · split
            · exact ih _ _ (AllSound.map_char '\n' sound)
            · exact ih _ _ (AllSound.map_char c sound)

/-- The characters that quote a text. -/
def isQuote (c : Char) : Bool := c.toNat == 0x22 || c.toNat == 0x27 || c.toNat == 0x60

theorem quote_cases {c : Char} (quote : isQuote c = true) :
    c = '\x22' ∨ c = '\x27' ∨ c = '\x60' := by
  simpa [isQuote, ← Char.toNat_inj, or_assoc] using quote

theorem beginsToken_of_quote {c : Char} (quote : isQuote c = true) : beginsToken c = true := by
  rcases quote_cases quote with rfl | rfl | rfl <;> decide

theorem readLexeme_opened {c : Char} (quote : isQuote c = true) (fuel pos : Nat) (cs : List Char) :
    (readLexeme fuel pos (c :: cs)).kind.Opened := by
  have start : NameChar.isStart c = false := by
    rcases quote_cases quote with rfl | rfl | rfl <;> decide
  rw [readLexeme, start]
  rcases quote_cases quote with rfl | rfl | rfl
  · exact readStringFrom_opened _ _ _ _ .nil
  · exact readStringFrom_opened _ _ _ _ .nil
  · refine readTemplateFrom_opened _ _ _ ?_
    rintro us ⟨⟩
    exact .nil

namespace TokenKind.Opened

variable {k : TokenKind} {form : Form} (opened : k.Opened)

include opened

theorem bracketed : Read.isBracketed k = true := by
  cases opened <;> rfl

theorem ne_punct {p : Punct} : k ≠ .punct p := by
  cases opened <;> nofun

/-- A literal that a quote opens holds the units that have been decoded, or is faulty. -/
theorem decoded (text : k.text? = some form) :
    form.isFaulty = true ∨ ∃ us, AllSound us ∧ form.Decoded us := by
  cases opened with
  | broken => cases text
  | @string us sound =>
    cases text
    exact .inr ⟨us, sound, .string⟩
  | @template _ run part sound =>
    rcases part with rfl | rfl
    · cases text
      cases cooked : run.cooked with
      | none => exact .inl (by simp [Form.isFaulty, TemplateRun.quasi, cooked])
      | some us =>
        refine .inr ⟨us.reverse, (sound us cooked).reverse, ?_⟩
        simpa [TemplateRun.quasi, cooked] using .template _
    · cases text

end TokenKind.Opened

/-! ## The first tokens of a quoted text in parentheses -/

theorem toList_inParens (text : String) :
    (inParens text).toList = '(' :: (text.toList ++ ['\n', ')']) := by
  simp [inParens]

/-- A quoted text has its quotes around its content. -/
theorem isQuoted_inv {cs : List Char} (quoted : isQuoted cs = true) :
    ∃ q inside, isQuote q = true ∧ cs = q :: (inside ++ [q]) := by
  match cs, quoted with
  | q :: rest, quoted =>
    obtain ⟨quote, last⟩ := (Bool.and_eq_true ..).mp quoted
    obtain ⟨inside, rfl⟩ := List.getLast?_eq_some_iff.mp (beq_iff_eq.mp last)
    exact ⟨q, inside, quote, rfl⟩

namespace ReadState

variable {l : Language} {cs : List Char} {s t : ReadState input}

/-- The state at the parenthesis that begins a text, without any fault so far. -/
structure Begins (s : ReadState input) (l : Language) (cs : List Char) : Prop where
  paren : s.token.kind = .punct .lparen
  inert : s.token.inert = false
  pure : s.token.pure = false
  start : s.token.start = 0
  rest : s.rest = cs
  pos : s.pos = 1
  size : s.size = cs.length + 1
  language : s.language = l
  context : s.context = { inAsync := !l.script, ambient := l.definition }
  tokenProblems : s.tokenProblems = []
  problems : s.problems = []
  defaults : s.defaults = []

theorem initial_begins (l : Language) (cs : List Char) : (initial l ('(' :: cs)).Begins l cs := by
  have start : NameChar.isStart '(' = false := by decide
  have lexeme : readLexeme (cs.length + 1) 0 ('(' :: cs) =
      { kind := .punct .lparen, rest := cs, count := 1 } := by
    rw [readLexeme, start]
    rfl
  have here := scanToken_here l.script (c := '(') (by decide) (cs.length + 1) cs 0 {} true
  rw [lexeme] at here
  exact {
    paren := congrArg (·.token.kind) here
    inert := congrArg (·.token.inert) here
    pure := congrArg (·.token.pure) here
    start := congrArg (·.token.start) here
    rest := congrArg (·.rest) here
    pos := congrArg (·.pos) here
    size := rfl
    language := rfl
    context := rfl
    tokenProblems := congrArg (·.problems.reverse) here
    problems := rfl
    defaults := rfl }

/-- Two states at the same place of one text, which may be read in different languages. -/
structure Near (s t : ReadState input) : Prop where
  size : s.size = t.size
  rest : s.rest = t.rest
  pos : s.pos = t.pos
  tokenProblems : s.tokenProblems = t.tokenProblems

theorem Begins.near {l' : Language} (here : s.Begins l cs) (there : t.Begins l' cs) : s.Near t where
  size := here.size.trans there.size.symm
  rest := here.rest.trans there.rest.symm
  pos := here.pos.trans there.pos.symm
  tokenProblems := here.tokenProblems.trans there.tokenProblems.symm

/-- A token that no comment of an old document can be mistaken for comes next in all languages. -/
theorem Near.advance (near : s.Near t) (plain : s.language.script = false)
    (angle : (Read.advance s).token.kind ≠ .punct .lt)
    (minus : (Read.advance s).token.kind ≠ .punct .minusMinus) :
    (Read.advance s).Near (Read.advance t) ∧ (Read.advance s).token = (Read.advance t).token := by
  have like := scanToken_like t.language.script (t.size - t.pos) t.rest t.pos false s.trivia t.trivia
  have current : scanToken s.language.script (s.size - s.pos) s.rest s.pos s.trivia false =
      scanToken false (s.size - s.pos) s.rest s.pos s.trivia false := by rw [plain]
  have same : scanToken t.language.script (t.size - t.pos) t.rest t.pos s.trivia false =
      scanToken s.language.script (s.size - s.pos) s.rest s.pos s.trivia false := by
    rw [← near.size, ← near.rest, ← near.pos, current]
    refine scanToken_script ?_ ?_ t.language.script
    · rw [← current]
      exact angle
    · rw [← current]
      exact minus
  rw [same] at like
  refine ⟨{ near with rest := like.rest, pos := like.pos, tokenProblems := ?_ }, like.token⟩
  change (Scanned.problems _).reverse ++ s.tokenProblems = _
  rw [like.problems, near.tokenProblems]
  rfl

variable {q : Char} {inside : List Char}

/-- The token after the parenthesis is the one that the quote opens. -/
theorem Begins.token_advance (begins : s.Begins l (q :: inside)) (quote : isQuote q = true) :
    (Read.advance s).token.kind.Opened ∧ (Read.advance s).token.inert = false ∧
      (Read.advance s).token.pure = false := by
  have here := scanToken_here s.language.script (beginsToken_of_quote quote) (s.size - s.pos) inside
    s.pos s.trivia false
  rw [← begins.rest] at here
  refine ⟨?_, congrArg (·.token.inert) here, congrArg (·.token.pure) here⟩
  have kind : (Read.advance s).token.kind = _ := congrArg (·.token.kind) here
  rw [kind]
  exact begins.rest ▸ readLexeme_opened quote ..

theorem Begins.opensParens (begins : s.Begins l (q :: inside)) (quote : isQuote q = true) :
    Read.OpensParens s :=
  have ⟨opened, inert, pure⟩ := begins.token_advance quote
  { paren := begins.paren
    bracketed := opened.bracketed
    single := opened.ne_punct
    inert
    pure }

end ReadState

/-! ## Literals in every language -/

/-- The quoted text is a mere literal: the token after the parenthesis is one, and the parenthesis
closes after it. -/
structure IsLiteral (l : Language) (text : String) (form : Form) : Prop where
  single : (Read.advance (.initial l (inParens text).toList)).token.kind.text? = some form
  close : (Read.advance (Read.advance (.initial l (inParens text).toList))).token.kind =
    .punct .rparen
  sound : form.isFaulty = false

/-- The literal in its place, which is the first token after the parenthesis. -/
def literalNode (l : Language) (text : String) (form : Form) : Node :=
  .mk form .value (Read.advance (.initial l (inParens text).toList)).token.literalSpans []

theorem Read.Larger.isText {e : Node} (larger : Read.Larger e) : e.form.isText = false := by
  unfold Read.Larger Form.isLarger at larger
  split at larger
  · cases larger
  · cases larger
  · simpa using larger

section Quoted

variable {l : Language} {text : String} {form : Form} {p : Parsed} {e : Node}
  (quoted : isQuoted text.toList = true)

include quoted

theorem initial_quoted : ∃ q inside, isQuote q = true ∧
    ∀ l, (ReadState.initial l (inParens text).toList).Begins l (q :: inside) := by
  obtain ⟨q, inside, quote, chars⟩ := isQuoted_inv quoted
  refine ⟨q, inside ++ [q] ++ ['\n', ')'], quote, fun l => ?_⟩
  rw [toList_inParens, chars]
  exact ReadState.initial_begins l _

theorem isEmpty_trim_quoted : (Blank.trim text.toList).isEmpty = false := by
  obtain ⟨q, inside, quote, chars⟩ := isQuoted_inv quoted
  rw [chars]
  refine Blank.isEmpty_trim_cons ?_ _
  rcases quote_cases quote with rfl | rfl | rfl <;> decide

theorem Replacement.classify_of_quoted : classify text = classifyQuoted text := by
  have other (word : String) (plain : isQuoted word.toList = false) : text ≠ word := by
    rintro rfl
    rw [plain] at quoted
    cases quoted
  rw [classify, if_neg (other "true" (by decide)), if_neg (other "false" (by decide)),
    if_pos quoted]

/-- The tokens of a literal of a module are the same in every language. -/
theorem IsLiteral.near (literal : IsLiteral l text form) (plain : l.script = false)
    (l' : Language) :
    let s := ReadState.initial l (inParens text).toList
    let t := ReadState.initial l' (inParens text).toList
    (Read.advance s).token = (Read.advance t).token ∧
      (Read.advance (Read.advance s)).token = (Read.advance (Read.advance t)).token ∧
      (Read.advance (Read.advance s)).Near (Read.advance (Read.advance t)) := by
  obtain ⟨q, inside, quote, begins⟩ := initial_quoted quoted
  have opened := ((begins l).token_advance quote).1
  obtain ⟨second, token⟩ :=
    ((begins l).near (begins l')).advance plain opened.ne_punct opened.ne_punct
  obtain ⟨third, token'⟩ := second.advance plain (by rw [literal.close]; nofun)
    (by rw [literal.close]; nofun)
  exact ⟨token, token', third⟩

/-- A literal of a module is a literal in every language. -/
theorem IsLiteral.language (literal : IsLiteral l text form) (plain : l.script = false)
    (l' : Language) : IsLiteral l' text form := by
  obtain ⟨token, token', -⟩ := literal.near quoted plain l'
  exact {
    single := token ▸ literal.single
    close := token' ▸ literal.close
    sound := literal.sound }

/-- A literal holds the units that have been decoded. -/
theorem IsLiteral.decoded (literal : IsLiteral l text form) :
    ∃ us, AllSound us ∧ form.Decoded us := by
  obtain ⟨q, inside, quote, begins⟩ := initial_quoted quoted
  rcases ((begins l).token_advance quote).1.decoded literal.single with faulty | decoded
  · rw [literal.sound] at faulty
    cases faulty
  · exact decoded

/-- The expression that makes up a quoted text is a mere literal, or something larger. -/
theorem sole_cases (read : parse l (inParens text) = .ok p)
    (sole : p.tree.soleExpression? = some e) :
    Read.Larger e ∨ ∃ form span, e = .mk form .value span [] ∧ IsLiteral l text form := by
  obtain ⟨q, inside, quote, begins⟩ := initial_quoted quoted
  obtain ⟨t, program, -, clean⟩ := parse_inv read
  have opens := (begins l).opensParens quote
  obtain ⟨s, -, span, u, v, back, parens, -, -, -, stays, finishes, -⟩ :=
    Read.program_sole opens.paren (begins l).inert (begins l).pure program sole
  obtain ⟨span', e', whole, cases⟩ := Read.parenthesized_literal (opens.beside back.toBeside) parens
  obtain rfl : e = e' := by
    cases whole
    rfl
  rcases cases with larger | ⟨form, span, single, rfl, close, faulty⟩
  · exact .inl larger
  · refine .inr ⟨form, span, rfl, ?_, ?_, ?_⟩
    · rw [← back.advance.kind, single]
    · rw [← back.advance.advance.kind, close]
    · rw [← Bool.not_eq_true]
      exact fun invalid =>
        faulty invalid ((finishes.problems.trans stays.problems).symm.trans clean)

/-- A text that is a mere literal is read as that. -/
theorem IsLiteral.sole (literal : IsLiteral l text form) (read : parse l (inParens text) = .ok p)
    (sole : p.tree.soleExpression? = some e) : e = literalNode l text form := by
  obtain ⟨q, inside, quote, begins⟩ := initial_quoted quoted
  obtain ⟨t, program, -⟩ := parse_inv read
  have opens := (begins l).opensParens quote
  obtain ⟨s, -, span, u, v, back, parens, -⟩ :=
    Read.program_sole opens.paren (begins l).inert (begins l).pure program sole
  obtain ⟨t', single, -⟩ := Read.parenthesized_text (opens.beside back.toBeside)
    (by rw [back.advance.kind, literal.single]) literal.sound
    (by rw [back.advance.advance.kind, literal.close])
  rw [single, back.advance.token] at parens
  cases parens
  rfl

/-- A literal that the text ends with is accepted, as itself. -/
theorem IsLiteral.parseExpression (literal : IsLiteral l text form)
    (ends : (Read.advance (Read.advance (Read.advance
      (.initial l (inParens text).toList)))).token.kind = .eof)
    (clean : (Read.advance (Read.advance (Read.advance
      (.initial l (inParens text).toList)))).tokenProblems = []) :
    Splice.parseExpression l text = some (literalNode l text form) := by
  obtain ⟨q, inside, quote, begins⟩ := initial_quoted quoted
  have opens := (begins l).opensParens quote
  obtain ⟨tree, t, read, sole, exports, like⟩ := Read.program_text
    (d := 16 * (inParens text).toList.length + 72) opens (begins l).inert (begins l).pure
    literal.single literal.sound literal.close ends
  have parsed := parse_of_program read (like.tokenProblems.trans clean)
    (like.problems.trans (begins l).problems) (like.defaults.trans (begins l).defaults) exports
  have calm : (literalNode l text form).suspends = false := by
    have text := Read.isText_of_text literal.single
    cases form <;> first | rfl | cases text
  rw [parseExpression_of_sole (isEmpty_trim_quoted quoted) parsed sole]
  change (if (literalNode l text form).suspends then _ else _) = _
  rw [calm]
  rfl

/-- A quoted expression that is no literal is classified as itself. -/
theorem Replacement.classify_of_not_isText
    (read : parseExpression .plain text = some e) (other : e.form.isText = false) :
    classify text = .expression text := by
  rw [classify_of_quoted quoted, classifyQuoted, read]
  dsimp only
  split
  next v h form =>
    rw [form] at other
    cases other
  next q form =>
    rw [form] at other
    cases other
  next => rfl

end Quoted

end Splice
