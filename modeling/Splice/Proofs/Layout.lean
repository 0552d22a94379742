import Splice.Token.Scan

/-!
# Laid out tokens

A text is a layout of tokens if it spells them one after the other, with blanks and line ends between
them wherever two would otherwise run into each other. Reading such a text gives the tokens back.
A mark that begins with a closing angle bracket is read in two steps: the bracket alone first, and
what has to be joined to it later.
-/
namespace Splice

/-! ## Words and marks -/

/-- Spelled as a name: a character that may begin one, then characters that may stand in one. -/
def isSpelled : List Char → Bool
  | [] => false
  | c :: cs => NameChar.isStart c && (c :: cs).all NameChar.isPart

/-- A name or a keyword. -/
structure Word where
  text : String
  spelled : isSpelled text.toList = true
deriving DecidableEq

/-- A token without its place in the text. -/
inductive Tok where
  | word (w : Word)
  | mark (p : Punct)
deriving DecidableEq

namespace Punct

/-- The part of a mark that is read first. -/
def first : Punct → Punct
  | gtEq | shr | shrEq | ushr | ushrEq => gt
  | p => p

/-- What has to be joined to the first part. -/
def late : Punct → List Char
  | gtEq => ['=']
  | shr => ['>']
  | shrEq => ['>', '=']
  | ushr => ['>', '>']
  | ushrEq => ['>', '>', '=']
  | _ => []

/-- The characters that would become part of the mark right before them, or make a comment of it in
scripts. -/
def clash : Punct → Char → Bool
  | dot, c => c == '.' || c.isDigit
  | questionDot, c => c.isDigit
  | question, c => c == '?' || c == '.'
  | eq, c => c == '=' || c == '>'
  | plus, c => c == '+' || c == '='
  | minus, c => c == '-' || c == '='
  | star, c => c == '*' || c == '='
  | slash, c => c == '/' || c == '*' || c == '='
  | lt, c => c == '<' || c == '=' || c == '!'
  | minusMinus, c => c == '>'
  | gt, c | shr, c => c == '>' || c == '='
  | amp, c => c == '&' || c == '='
  | pipe, c => c == '|' || c == '='
  | bang, c | percent, c | caret, c | eqEq, c | bangEq, c | starStar, c | coalesce, c | ampAmp, c
  | pipePipe, c | shl, c | ushr, c => c == '='
  | _, _ => false

end Punct

namespace Tok

def chars : Tok → List Char
  | word w => w.text.toList
  | mark p => p.text.toList

def kind : Tok → TokenKind
  | word w => .word w.text
  | mark p => .punct p

/-- The kind of the part that is read first. -/
def firstKind : Tok → TokenKind
  | word w => .word w.text
  | mark p => .punct p.first

def late : Tok → List Char
  | word _ => []
  | mark p => p.late

/-- The character after the token is no part of it. -/
def clash : Tok → Char → Bool
  | word _, c => NameChar.isPart c || c == '\\'
  | mark p, c => p.clash c

/-- The text does not run into the token before it. -/
def apart (t : Tok) (cs : List Char) : Bool := cs.head?.all fun c => !t.clash c

end Tok

/-! ## Layouts -/

/-- A character between tokens. -/
def isGapChar (c : Char) : Bool := Blank.isSourceBlank c || Blank.isLineEnd c

/-- The text spells the tokens. -/
inductive Laid : List Tok → List Char → Prop where
  | done {gap : List Char} : gap.all isGapChar = true → Laid [] gap
  | token {gap cs : List Char} {t : Tok} {ts : List Tok} :
    gap.all isGapChar = true → t.apart cs = true → Laid ts cs → Laid (t :: ts) (gap ++ (t.chars ++ cs))

/-- The code points of the characters between tokens. -/
def gapCodes : List Nat :=
  [0x9, 0xa, 0xb, 0xc, 0xd, 0x20, 0x85, 0xa0, 0x1680] ++ List.range' 0x2000 12 ++
    [0x2028, 0x2029, 0x202f, 0x205f, 0x3000, 0xfeff]

theorem mem_gapCodes {c : Char} (gap : isGapChar c = true) : c.toNat ∈ gapCodes := by
  have code (d : Char) : c = d ↔ c.toNat = d.toNat := Char.toNat_inj.symm
  simp only [isGapChar, Blank.isSourceBlank, Blank.isLineEnd, inTable, Bool.or_eq_true, beq_iff_eq,
    code, Char.reduceToNat] at gap
  simp only [gapCodes, List.mem_append, List.mem_cons, List.mem_range'_1, List.not_mem_nil]
  grind

theorem gap_code {c : Char} (inside : c.toNat ∈ gapCodes) :
    NameChar.isStart c = false ∧ NameChar.isPart c = false ∧ c ≠ '/' := by
  have all : ∀ n ∈ gapCodes, NameChar.isStart (Char.ofNat n) = false ∧
      NameChar.isPart (Char.ofNat n) = false ∧ Char.ofNat n ≠ '/' := by decide +kernel
  rw [← Char.ofNat_toNat c]
  exact all _ inside

/-- A gap is no part of a name and no beginning of a comment. -/
theorem gap_char {c : Char} (gap : isGapChar c = true) :
    NameChar.isStart c = false ∧ NameChar.isPart c = false ∧ c ≠ '/' :=
  gap_code (mem_gapCodes gap)

theorem Word.chars_eq (w : Word) : ∃ c cs, w.text.toList = c :: cs ∧ NameChar.isStart c = true ∧
    ∀ d ∈ c :: cs, NameChar.isPart d = true := by
  have spelled := w.spelled
  cases text : w.text.toList with
  | nil => simp [text, isSpelled] at spelled
  | cons c cs =>
    rw [text, isSpelled, Bool.and_eq_true, List.all_eq_true] at spelled
    exact ⟨c, cs, rfl, spelled.1, spelled.2⟩

theorem Tok.chars_ne_nil (t : Tok) : t.chars ≠ [] := by
  cases t with
  | word w =>
    obtain ⟨c, cs, text, -⟩ := w.chars_eq
    simp [chars, text]
  | mark p => cases p <;> simp [chars, Punct.text]

theorem Laid.length_le {ts : List Tok} {cs : List Char} (laid : Laid ts cs) :
    ts.length ≤ cs.length := by
  induction laid with
  | done => simp
  | @token gap cs t ts _ _ _ ih =>
    have some : 0 < t.chars.length := List.length_pos_iff.mpr t.chars_ne_nil
    simp only [List.length_cons, List.length_append]
    omega

/-! ## Reading a layout -/

theorem readPunct_text (p : Punct) (cs : List Char) (apart : (Tok.mark p).apart cs = true) :
    readPunct (p.text.toList ++ cs) = some (p.first, p.late ++ cs, p.first.text.toList.length) := by
  cases cs with
  | nil => cases p <;> rfl
  | cons c cs =>
    have free : p.clash c = false := by simpa [Tok.apart, Tok.clash] using apart
    cases p <;> simp only [Punct.clash, Bool.or_eq_false_iff, beq_eq_false_iff_ne] at free
    -- A mark that no character can lengthen is read whatever follows.
    all_goals try rfl
    all_goals simp_all [readPunct, Punct.first, Punct.late, Punct.text]

/-- How a mark begins tells it from all other tokens. -/
theorem Punct.text_head (p : Punct) : ∃ c cs, p.text.toList = c :: cs ∧
    (NameChar.isStart c || c == '\\') = false ∧ c.isDigit = false ∧
    (c.toNat == 0x22 || c.toNat == 0x27) = false ∧ (c.toNat == 0x60) = false ∧
    (c == '#') = false ∧ isGapChar c = false ∧
    (p = .dot ∧ cs = [] ∨ (c == '.') = false ∨ cs = ['.', '.']) := by
  cases p <;> exact ⟨_, _, rfl, by decide +kernel⟩

/-- The lexeme that a token is read as. -/
def Tok.lexeme (t : Tok) (cs : List Char) : Lexeme :=
  { kind := t.firstKind, rest := t.late ++ cs, count := t.chars.length - t.late.length }

theorem readLexeme_word (w : Word) (cs : List Char) (apart : (Tok.word w).apart cs = true)
    (fuel pos : Nat) : readLexeme fuel pos (w.text.toList ++ cs) = (Tok.word w).lexeme cs := by
  obtain ⟨c, r, text, start, parts⟩ := w.chars_eq
  have taken : (w.text.toList ++ cs).takeWhile NameChar.isPart = w.text.toList ∧
      (w.text.toList ++ cs).dropWhile NameChar.isPart = cs := by
    rw [text, List.takeWhile_append_of_pos parts, List.dropWhile_append_of_pos parts]
    cases cs with
    | nil => simp
    | cons d cs =>
      have stop : NameChar.isPart d = false := by
        simp only [Tok.apart, List.head?_cons, Option.all_some, Tok.clash, Bool.not_eq_true',
          Bool.or_eq_false_iff] at apart
        exact apart.1
      simp [stop]
  have read : readName fuel (w.text.toList ++ cs) =
      .ok (w.text.toList, cs, w.text.toList.length, false) := by
    unfold readName
    simp only [taken]
    split
    next d r => simp [Tok.apart, Tok.clash] at apart
    · rfl
  have begins : readLexeme fuel pos (w.text.toList ++ cs) = readWord fuel (w.text.toList ++ cs) := by
    rw [text, List.cons_append, readLexeme, start, Bool.true_or, if_pos rfl]
  rw [begins, readWord, read]
  simp [Tok.lexeme, Tok.firstKind, Tok.late, Tok.chars]

theorem readLexeme_mark (p : Punct) (cs : List Char) (apart : (Tok.mark p).apart cs = true)
    (fuel pos : Nat) : readLexeme fuel pos (p.text.toList ++ cs) = (Tok.mark p).lexeme cs := by
  have read := readPunct_text p cs apart
  have count : (Tok.mark p).chars.length - (Tok.mark p).late.length =
      p.first.text.toList.length := by
    cases p <;> rfl
  obtain ⟨c, r, text, name, digit, quote, tick, hash, -, dots⟩ := p.text_head
  have number : (c == '.' && (r ++ cs).head?.any Char.isDigit) = false := by
    rcases dots with ⟨rfl, rfl⟩ | other | rfl
    · cases cs with
      | nil => simp
      | cons d cs =>
        simp only [Tok.apart, List.head?_cons, Option.all_some, Tok.clash, Punct.clash,
          Bool.not_eq_true', Bool.or_eq_false_iff] at apart
        simp [apart.2]
    · simp [other]
    · simp
  rw [text, List.cons_append] at read ⊢
  rw [readLexeme, if_neg (by simp [name]), if_neg (by simp [digit]), if_neg (by simp [quote]),
    if_neg (by simp [tick]), if_neg (by rw [number]; exact Bool.false_ne_true),
    if_neg (by simp [hash]), read]
  simp only [Tok.lexeme, count]
  rfl

theorem readLexeme_tok (t : Tok) (cs : List Char) (apart : t.apart cs = true) (fuel pos : Nat) :
    readLexeme fuel pos (t.chars ++ cs) = t.lexeme cs := by
  cases t with
  | word w => exact readLexeme_word w cs apart fuel pos
  | mark p => exact readLexeme_mark p cs apart fuel pos

/-- What has been skipped holds no comment and no fault. -/
structure Skipped.Plain (s : Skipped) : Prop where
  comments : s.trivia.comments = []
  pure : s.pure = false
  inert : s.inert = false
  problem : s.problem = none

theorem Trivia.newline_comments {t : Trivia} (none : t.comments = []) :
    t.newline.comments = [] := by
  unfold Trivia.newline
  split <;> simp [none]

theorem Trivia.token_comments {t : Trivia} (none : t.comments = []) (start : Nat) (opens : Bool) :
    (t.token start opens).comments = [] := by
  simp only [Trivia.token, none]
  cases t.pending <;> rfl

/-- What is apart from a mark does not make the beginning of a comment of it. -/
theorem Punct.not_comment (p : Punct) (cs : List Char) (apart : (Tok.mark p).apart cs = true) :
    startsWith (p.text.toList ++ cs) "<!--" = false ∧
      startsWith (p.text.toList ++ cs) "-->" = false := by
  cases cs with
  | nil => cases p <;> exact ⟨rfl, rfl⟩
  | cons c cs =>
    cases p <;> simp [Tok.apart, Tok.clash, Punct.clash] at apart <;>
      simp [startsWith, List.isPrefixOf, Punct.text] <;> rintro rfl <;> simp at apart

/-- A token begins neither a gap nor a comment, also where scripts have their own ones. -/
theorem Tok.begins (t : Tok) (cs : List Char) (apart : t.apart cs = true) :
    ∃ c r, t.chars ++ cs = c :: r ∧ isGapChar c = false ∧
      (c = '/' → ∀ r', r ≠ '/' :: r' ∧ r ≠ '*' :: r') ∧
      startsWith (c :: r) "<!--" = false ∧ startsWith (c :: r) "-->" = false := by
  cases t with
  | word w =>
    obtain ⟨c, r, text, start, -⟩ := w.chars_eq
    have other : ∀ d, NameChar.isStart d = false → c ≠ d := by
      rintro d none rfl
      rw [none] at start
      cases start
    refine ⟨c, r ++ cs, by simp [chars, text], ?_, ?_, ?_, ?_⟩
    · cases gap : isGapChar c with
      | false => rfl
      | true =>
        rw [(gap_char gap).1] at start
        cases start
    · intro slash
      exact absurd slash (other '/' (by decide))
    · simp [startsWith, List.isPrefixOf, (other '<' (by decide)).symm]
    · simp [startsWith, List.isPrefixOf, (other '-' (by decide)).symm]
  | mark p =>
    obtain ⟨c, r, text, -, -, -, -, -, gap, -⟩ := p.text_head
    refine ⟨c, r ++ cs, by simp [chars, text], gap, ?_, ?_, ?_⟩
    · rintro rfl r'
      have slashes : p = .slash ∧ r = [] ∨ r = ['='] := by
        cases p <;> simp_all [Punct.text]
      rcases slashes with ⟨rfl, rfl⟩ | rfl
      · refine ⟨?_, ?_⟩ <;>
        · rintro rfl
          simp [Tok.apart, clash, Punct.clash] at apart
      · simp
    · rw [← List.cons_append, ← text]
      exact p.not_comment cs apart |>.1
    · rw [← List.cons_append, ← text]
      exact p.not_comment cs apart |>.2

/-- Skipping ends before a token. -/
theorem skipFrom_tok (script : Bool) (t : Tok) (cs : List Char) (apart : t.apart cs = true)
    (s : Skipped) :
    skipFrom script .between (t.chars ++ cs) s = { s with rest := t.chars ++ cs } := by
  obtain ⟨c, r, text, gap, comment, old, older⟩ := t.begins cs apart
  simp only [isGapChar, Bool.or_eq_false_iff] at gap
  rw [text, skipFrom]
  · simp [gap.1, gap.2, old, older]
  · rintro r' rfl
    exact fun tail => (comment rfl r').1 tail
  · rintro r' rfl
    exact fun tail => (comment rfl r').2 tail

theorem skipFrom_end (script : Bool) (s : Skipped) :
    skipFrom script .between [] s = { s with rest := [] } := by
  rw [skipFrom]

/-- Gaps are skipped, and nothing else. -/
theorem skipFrom_gap {script : Bool} (gap cs : List Char) (blank : gap.all isGapChar = true)
    (halts : ∀ s, skipFrom script .between cs s = { s with rest := cs }) (s : Skipped)
    (plain : s.Plain) :
    (skipFrom script .between (gap ++ cs) s).Plain ∧
    (skipFrom script .between (gap ++ cs) s).rest = cs ∧
    (skipFrom script .between (gap ++ cs) s).pos = s.pos + gap.length := by
  induction gap generalizing s with
  | nil =>
    rw [List.nil_append, halts]
    exact ⟨⟨plain.comments, plain.pure, plain.inert, plain.problem⟩, rfl, rfl⟩
  | cons c gap ih =>
    rw [List.all_cons, Bool.and_eq_true] at blank
    have slash := (gap_char blank.1).2.2
    have step : ∃ s' : Skipped, s'.Plain ∧ s'.pos = s.pos + 1 ∧
        skipFrom script .between (c :: (gap ++ cs)) s = skipFrom script .between (gap ++ cs) s' := by
      rw [skipFrom]
      · by_cases space : Blank.isSourceBlank c
        · refine ⟨s.move 1, ⟨plain.comments, plain.pure, plain.inert, plain.problem⟩, rfl, ?_⟩
          rw [if_pos space]
        · have line : Blank.isLineEnd c = true := by simpa [isGapChar, space] using blank.1
          refine ⟨s.newline.move 1, ⟨Trivia.newline_comments plain.comments, plain.pure, plain.inert,
            plain.problem⟩, rfl, ?_⟩
          rw [if_neg space, if_pos line]
      · intro r same
        exact absurd same slash
      · intro r same
        exact absurd same slash
    obtain ⟨s', plain', pos, same⟩ := step
    obtain ⟨after, rest, place⟩ := ih blank.2 s' plain'
    rw [List.cons_append, same]
    refine ⟨after, rest, ?_⟩
    rw [place, pos, List.length_cons]
    omega

/-- What a layout gives when its first token is read: the token, and a layout of the others behind
what is still to be joined to it. -/
structure Scanned.Of (r : Scanned) (t : Tok) (ts : List Tok) (stop : Nat) : Prop where
  rest : ∃ cs, Laid ts cs ∧ t.apart cs = true ∧ r.rest = t.late ++ cs
  kind : r.token.kind = t.firstKind
  escaped : r.token.escaped = false
  pure : r.token.pure = false
  inert : r.token.inert = false
  comments : r.trivia.comments = []
  problems : r.problems = []
  start : r.pos = r.token.start + (t.chars.length - t.late.length)
  stop : r.pos + r.rest.length = stop

theorem scanToken_laid (script : Bool) {t : Tok} {ts : List Tok} {cs : List Char} (laid : Laid (t :: ts) cs)
    (fuel pos : Nat) (trivia : Trivia) (none : trivia.comments = []) (fresh : Bool) :
    (scanToken script fuel cs pos trivia fresh).Of t ts (pos + cs.length) := by
  cases laid with
  | @token gap cs _ _ blank apart laid =>
    obtain ⟨plain, rest, place⟩ := skipFrom_gap gap (t.chars ++ cs) blank
      (skipFrom_tok script t cs apart) { rest := gap ++ (t.chars ++ cs), pos, trivia, fresh }
      ⟨none, rfl, rfl, rfl⟩
    have scanned : scanToken script fuel (gap ++ (t.chars ++ cs)) pos trivia fresh =
        .ofLexeme (t.lexeme cs) (pos + gap.length)
          (skipFrom script .between (gap ++ (t.chars ++ cs))
            { rest := gap ++ (t.chars ++ cs), pos, trivia, fresh }).trivia
          (skipFrom script .between (gap ++ (t.chars ++ cs))
            { rest := gap ++ (t.chars ++ cs), pos, trivia, fresh }).fresh false false [] := by
      unfold scanToken
      simp only [plain.problem, plain.pure, plain.inert, rest, place,
        readLexeme_tok t cs apart]
    have shorter : t.late.length ≤ t.chars.length := by
      cases t with
      | word w => simp [Tok.late]
      | mark p => cases p <;> decide
    rw [scanned]
    refine ⟨⟨cs, laid, apart, rfl⟩, rfl, rfl, rfl, rfl, ?_, rfl, rfl, ?_⟩
    · exact Trivia.token_comments plain.comments _ _
    · simp only [Scanned.ofLexeme, Tok.lexeme, List.length_append]
      omega

theorem scanToken_end (script : Bool) {cs : List Char} (laid : Laid [] cs) (fuel pos : Nat) (trivia : Trivia)
    (none : trivia.comments = []) (fresh : Bool) :
    let r := scanToken script fuel cs pos trivia fresh
    r.token.kind = .eof ∧ r.rest = [] ∧ r.token.escaped = false ∧ r.token.pure = false ∧
      r.token.inert = false ∧ r.trivia.comments = [] ∧ r.problems = [] ∧
      r.token.start = pos + cs.length ∧ r.pos = pos + cs.length := by
  cases laid with
  | done blank =>
    obtain ⟨plain, rest, place⟩ := skipFrom_gap cs [] blank (skipFrom_end script)
      { rest := cs, pos, trivia, fresh } ⟨none, rfl, rfl, rfl⟩
    rw [List.append_nil] at plain rest place
    simp only [scanToken, plain.problem, plain.pure, plain.inert, rest, place, readLexeme,
      Scanned.ofLexeme, Trivia.token_comments plain.comments, List.append_nil, Nat.add_zero,
      and_self]

end Splice
