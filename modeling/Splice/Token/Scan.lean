import Splice.Token.Comment
import Splice.Token.Quoted

/-!
# Reading tokens

`scanToken` skips blanks and comments and reads the token that follows. The grammar decides where a
regular expression, the continuation of a template or the text of an element begins; these are read
by functions of their own.
-/
namespace Splice

/-! ## Blanks and comments -/

/-- What has been skipped before a token. -/
structure Skipped where
  rest : List Char
  pos : Nat
  trivia : Trivia
  fresh : Bool
  pure : Bool := false
  inert : Bool := false
  problem : Option Problem := none

inductive SkipMode where
  | between
  /-- Inside a comment, with its start and its characters, the latest first. -/
  | line (start : Nat) (text : List Char)
  | block (start : Nat) (text : List Char)

namespace Skipped

/-- Ends a comment. -/
def comment (s : Skipped) (start : Nat) (text : List Char) (isBlock : Bool) : Skipped :=
  let text := text.reverse
  let inner := if isBlock then (text.drop 2).take (text.length - 4) else text.drop 2
  let content := CommentContent.ofInner isBlock inner
  { s with
    trivia := s.trivia.comment start text isBlock content
    pure := s.pure || content == .pure
    inert := s.inert || content == .inert
    fresh := s.fresh || !isBlock }

/-- Moves over `n` characters. -/
def move (s : Skipped) (n : Nat) : Skipped := { s with pos := s.pos + n }

def newline (s : Skipped) : Skipped := { s with trivia := s.trivia.newline, fresh := true }

end Skipped

/-- Skips blanks and comments. Scripts also have the two comment forms of old documents: one begins
anywhere, the other only at the start of a line. -/
def skipFrom (script : Bool) : SkipMode → List Char → Skipped → Skipped
  | .between, cs, s =>
    match cs with
    | [] => { s with rest := [] }
    | '/' :: '/' :: r => skipFrom script (.line s.pos ['/', '/']) r (s.move 2)
    | '/' :: '*' :: r => skipFrom script (.block s.pos ['*', '/']) r (s.move 2)
    | c :: r =>
      if Blank.isSourceBlank c then skipFrom script .between r (s.move 1)
      else if Blank.isLineEnd c then skipFrom script .between r (s.newline.move 1)
      else if script && startsWith cs "<!--" then
        skipFrom script (.line s.pos ['<']) r (s.move 1)
      else if script && s.fresh && startsWith cs "-->" then
        skipFrom script (.line s.pos ['-']) r (s.move 1)
      else { s with rest := cs }
  | .line start text, cs, s =>
    match cs with
    | [] => { s.comment start text false with rest := [] }
    | c :: r =>
      if Blank.isLineEnd c then
        skipFrom script .between r ((s.comment start text false).newline.move 1)
      else skipFrom script (.line start (c :: text)) r (s.move 1)
  | .block start text, cs, s =>
    match cs with
    | [] => { s with rest := [], problem := some .unterminatedComment }
    | '*' :: '/' :: r =>
      skipFrom script .between r ((s.comment start ('/' :: '*' :: text) true).move 2)
    | c :: r =>
      let s := if Blank.isLineEnd c then { s with fresh := true } else s
      skipFrom script (.block start (c :: text)) r (s.move 1)

/-! ## Words -/

/-- Why a name cannot be read, with the text after the fault and the number of characters taken. -/
structure NameFault where
  problem : Problem
  rest : List Char
  count : Nat

/-- An escape that stands for no character. -/
def NameFault.escape (rest : List Char) (count : Nat) : NameFault :=
  { problem := .invalidUnicodeEscape, rest, count }

/-- A character that cannot stand in a name, or half of a surrogate pair. -/
def NameFault.ofCode (p : CodePoint) (count : Nat) : NameFault :=
  match TextUnit.ofCode p.code with
  | .char c => { problem := .invalidCharacter c, rest := p.rest, count }
  | .half _ => .escape p.rest count

/-- Reads a name that holds escapes; `text` has the characters so far, the latest first. -/
def readWordFrom : (fuel : Nat) → List Char → (text : List Char) → (count : Nat) →
    Except NameFault (List Char × List Char × Nat)
  | 0, rest, _, count => .error (.escape rest count)
  | fuel + 1, '\\' :: 'u' :: r, text, count =>
    match readCodePoint r with
    | some p =>
      let c := Char.ofNat p.code
      let ok := if text.isEmpty then NameChar.isStart c else NameChar.isPart c
      if ok then readWordFrom fuel p.rest (c :: text) (count + 2 + p.taken)
      else .error (.ofCode p (count + 2 + p.taken))
    | none => .error (.escape r (count + 2))
  | _ + 1, '\\' :: r, _, count => .error (.escape r (count + 1))
  | fuel + 1, c :: r, text, count =>
    if NameChar.isPart c then readWordFrom fuel r (c :: text) (count + 1)
    else .ok (text.reverse, c :: r, count)
  | _ + 1, [], text, count => .ok (text.reverse, [], count)

/-- Reads a name from its first character or escape on. -/
def readName (fuel : Nat) (cs : List Char) :
    Except NameFault (List Char × List Char × Nat × Bool) :=
  let plain := cs.takeWhile NameChar.isPart
  match cs.dropWhile NameChar.isPart with
  | '\\' :: r => do
    let (text, rest, count) ← readWordFrom (fuel + 1) ('\\' :: r) plain.reverse plain.length
    pure (text, rest, count, true)
  | rest => .ok (plain, rest, plain.length, false)

def readWord (fuel : Nat) (cs : List Char) : Lexeme :=
  match readName fuel cs with
  | .ok (text, rest, count, escaped) => { kind := .word (String.ofList text), rest, count, escaped }
  | .error f => .broken f.problem f.rest f.count

/-- Reads a private name after its mark. -/
def readPrivateName (fuel : Nat) (cs : List Char) : Lexeme :=
  match cs with
  | c :: _ =>
    if NameChar.isStart c || c == '\\' then
      match readName fuel cs with
      | .ok (text, rest, count, escaped) =>
        { kind := .privateName (String.ofList text), rest, count := count + 1, escaped }
      | .error f => .broken f.problem f.rest (f.count + 1)
    else .broken (Lexeme.unexpected cs) cs 1
  | [] => .broken .unexpectedEnd cs 1

/-! ## Marks -/

/-- Reads the longest punctuation mark. -/
def readPunct : List Char → Option (Punct × List Char × Nat)
  | '(' :: r => some (.lparen, r, 1)
  | ')' :: r => some (.rparen, r, 1)
  | '[' :: r => some (.lbracket, r, 1)
  | ']' :: r => some (.rbracket, r, 1)
  | '{' :: r => some (.lbrace, r, 1)
  | '}' :: r => some (.rbrace, r, 1)
  | ';' :: r => some (.semicolon, r, 1)
  | ',' :: r => some (.comma, r, 1)
  | ':' :: r => some (.colon, r, 1)
  | '~' :: r => some (.tilde, r, 1)
  | '@' :: r => some (.atSign, r, 1)
  | '>' :: r => some (.gt, r, 1)
  | '.' :: r =>
    match r with
    | '.' :: '.' :: r => some (.ellipsis, r, 3)
    | _ => some (.dot, r, 1)
  | '?' :: r =>
    match r with
    | '?' :: '=' :: r => some (.coalesceEq, r, 3)
    | '?' :: r => some (.coalesce, r, 2)
    | '.' :: r' =>
      if r'.head?.any Char.isDigit then some (.question, r, 1) else some (.questionDot, r', 2)
    | _ => some (.question, r, 1)
  | '=' :: r =>
    match r with
    | '=' :: '=' :: r => some (.eqEqEq, r, 3)
    | '=' :: r => some (.eqEq, r, 2)
    | '>' :: r => some (.arrow, r, 2)
    | _ => some (.eq, r, 1)
  | '!' :: r =>
    match r with
    | '=' :: '=' :: r => some (.bangEqEq, r, 3)
    | '=' :: r => some (.bangEq, r, 2)
    | _ => some (.bang, r, 1)
  | '+' :: r =>
    match r with
    | '+' :: r => some (.plusPlus, r, 2)
    | '=' :: r => some (.plusEq, r, 2)
    | _ => some (.plus, r, 1)
  | '-' :: r =>
    match r with
    | '-' :: r => some (.minusMinus, r, 2)
    | '=' :: r => some (.minusEq, r, 2)
    | _ => some (.minus, r, 1)
  | '*' :: r =>
    match r with
    | '*' :: '=' :: r => some (.starStarEq, r, 3)
    | '*' :: r => some (.starStar, r, 2)
    | '=' :: r => some (.starEq, r, 2)
    | _ => some (.star, r, 1)
  | '/' :: r =>
    match r with
    | '=' :: r => some (.slashEq, r, 2)
    | _ => some (.slash, r, 1)
  | '%' :: r =>
    match r with
    | '=' :: r => some (.percentEq, r, 2)
    | _ => some (.percent, r, 1)
  | '<' :: r =>
    match r with
    | '<' :: '=' :: r => some (.shlEq, r, 3)
    | '<' :: r => some (.shl, r, 2)
    | '=' :: r => some (.ltEq, r, 2)
    | _ => some (.lt, r, 1)
  | '&' :: r =>
    match r with
    | '&' :: '=' :: r => some (.ampAmpEq, r, 3)
    | '&' :: r => some (.ampAmp, r, 2)
    | '=' :: r => some (.ampEq, r, 2)
    | _ => some (.amp, r, 1)
  | '|' :: r =>
    match r with
    | '|' :: '=' :: r => some (.pipePipeEq, r, 3)
    | '|' :: r => some (.pipePipe, r, 2)
    | '=' :: r => some (.pipeEq, r, 2)
    | _ => some (.pipe, r, 1)
  | '^' :: r =>
    match r with
    | '=' :: r => some (.caretEq, r, 2)
    | _ => some (.caret, r, 1)
  | _ => none

/-- Joins a closing angle bracket with the marks after it. -/
def joinAngle : List Char → Punct × List Char × Nat
  | '>' :: '>' :: '=' :: r => (.ushrEq, r, 4)
  | '>' :: '>' :: r => (.ushr, r, 3)
  | '>' :: '=' :: r => (.shrEq, r, 3)
  | '>' :: r => (.shr, r, 2)
  | '=' :: r => (.gtEq, r, 2)
  | r => (.gt, r, 1)

/-! ## Tokens -/

/-- Reads one lexeme at its first character. -/
def readLexeme (fuel pos : Nat) (cs : List Char) : Lexeme :=
  match cs with
  | [] => { kind := .eof, rest := [], count := 0 }
  | c :: r =>
    if NameChar.isStart c || c == '\\' then readWord fuel cs
    else if c.isDigit then readNumber cs
    else if c.toNat == 0x22 || c.toNat == 0x27 then readString c fuel r
    else if c.toNat == 0x60 then readTemplate true fuel r
    else if c == '.' && r.head?.any Char.isDigit then readNumber cs
    else if c == '#' then
      if pos == 0 && r.head? == some '!' then
        let line := r.takeWhile fun d => !Blank.isLineEnd d
        { kind := .hashbang (String.ofList line), rest := r.drop line.length,
          count := line.length + 1 }
      else readPrivateName fuel r
    else
      match readPunct cs with
      | some (p, rest, count) => { kind := .punct p, rest, count }
      | none => .broken (.invalidCharacter c) r 1

/-- A token together with the text after it. -/
structure Scanned where
  token : Token
  rest : List Char
  pos : Nat
  trivia : Trivia
  problems : List Problem

/-- After these marks a comment leads what follows it. -/
def TokenKind.opensComment : TokenKind → Bool
  | .punct .eq => true
  | .punct .lparen => true
  | _ => false

/-- Makes a token of a lexeme found at `pos`. -/
def Scanned.ofLexeme (l : Lexeme) (pos : Nat) (trivia : Trivia) (fresh pure inert : Bool)
    (problems : List Problem) : Scanned :=
  { token :=
      { kind := l.kind, start := pos, stop := pos + l.count, fresh, escaped := l.escaped, pure,
        inert }
    rest := l.rest
    pos := pos + l.count
    trivia := trivia.token pos l.kind.opensComment
    problems := problems ++ l.problems }

/-- Reads the next token. `fuel` bounds the length of one token; `fresh` is set at the very start of
the text. -/
def scanToken (script : Bool) (fuel : Nat) (rest : List Char) (pos : Nat) (trivia : Trivia)
    (fresh : Bool) : Scanned :=
  let s := skipFrom script .between rest { rest, pos, trivia, fresh }
  match s.problem with
  | some p =>
    .ofLexeme { kind := .eof, rest := [], count := 0 } s.pos s.trivia s.fresh s.pure s.inert [p]
  | none => .ofLexeme (readLexeme fuel s.pos s.rest) s.pos s.trivia s.fresh s.pure s.inert []

end Splice
