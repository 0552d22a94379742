import Splice.Language
import Splice.Node.Basic
import Splice.Token.Extent

/-!
# Reading state

The grammar reads one token ahead. `Read` is the monad of readers: a state, and a problem that ends
the reading. Problems that do not end it are collected in the state. The text that is read stays the
same throughout, so it belongs to the type of the states, and each state knows where in this text
it is.
-/
namespace Splice

/-- The whole text that is read. -/
class Source where
  chars : List Char

variable {input : Source}

/-- What is allowed where the reader stands. -/
structure Context where
  /-- The operator `in` is an operator here. -/
  allowIn : Bool := true
  inGenerator : Bool := false
  inAsync : Bool := false
  inFunction : Bool := false
  /-- A decorator is being read. -/
  inDecorator : Bool := false
  /-- Conditional types are not read here. -/
  noConditional : Bool := false
  /-- Declarations without implementation. -/
  ambient : Bool := false
deriving DecidableEq, Repr, Inhabited

structure ReadState (input : Source) where
  language : Language
  /-- The number of characters of the whole text. -/
  size : Nat
  rest : List Char
  pos : Nat
  token : Token
  placed : Placed input.chars token rest pos
  /-- The end of the token before the current one. -/
  lastStop : Nat
  context : Context
  /-- How many brackets have been opened and not closed. -/
  opened : Nat
  /-- Faulty tokens, the latest first. -/
  tokenProblems : List Problem
  /-- Other faults that did not end the reading, the latest first. -/
  problems : List Problem
  trivia : Trivia
  /-- Where a parenthesis is known not to open an arrow function. -/
  notArrow : List Nat
  /-- Shorthand properties with a default value that have not become part of a target yet. -/
  defaults : List Nat
  /-- Array and object literals, by their start, that end with a comma. -/
  trailing : List Nat

namespace ReadState

/-- The whole text. -/
def source (_ : ReadState input) : List Char := input.chars

theorem tidy (s : ReadState input) : s.token.kind.Tidy := s.placed.tidy

end ReadState

abbrev Read [input : Source] := EStateM Problem (ReadState input)

namespace Read

/-! ## Problems -/

/-- Records a fault and goes on. -/
def note (p : Problem) : Read Unit :=
  modify fun s => { s with problems := p :: s.problems }

/-- The current token cannot stand here. A broken token, or the end of a broken text, has its own
reason. -/
def unexpected {α : Type} : Read α := do
  let s ← get
  match s.token.kind, s.tokenProblems with
  | .broken, p :: ps =>
    set { s with tokenProblems := ps }
    throw p
  | .eof, p :: ps =>
    set { s with tokenProblems := ps }
    throw p
  | _, _ => throw .unexpectedToken

/-! ## Looking -/

def token : Read Token := return (← get).token

def kind : Read TokenKind := return (← get).token.kind

def start : Read Nat := return (← get).token.start

def isFresh : Read Bool := return (← get).token.fresh

def language : Read Language := return (← get).language

def isTyped : Read Bool := return (← get).language.typed

def context : Read Context := return (← get).context

/-- The current token is the given mark. -/
def isAt (p : Punct) : Read Bool := return (← get).token.kind == .punct p

/-- The current token is the given word. -/
def atWord (w : String) : Read Bool := return (← get).token.kind == .word w

/-! ## Moving -/

/-- Puts a scanned token into the state. -/
def accept (s : ReadState input) (r : Scanned) (placed : Placed s.source r.token r.rest r.pos) :
    ReadState input :=
  { s with
    token := r.token
    rest := r.rest
    pos := r.pos
    placed
    trivia := r.trivia
    tokenProblems := r.problems.reverse ++ s.tokenProblems }

/-- The number of open brackets after a token. -/
def bracketsAfter (opened : Nat) : TokenKind → Nat
  | .punct .lparen | .punct .lbracket | .punct .lbrace => opened + 1
  | .punct .rparen | .punct .rbracket | .punct .rbrace => opened - 1
  | _ => opened

/-- Reads the next token. -/
def advance (s : ReadState input) : ReadState input :=
  accept { s with lastStop := s.token.stop, opened := bracketsAfter s.opened s.token.kind }
    (scanToken s.language.script (s.size - s.pos) s.rest s.pos s.trivia false)
    (placed_scanToken s.placed.leaves ..)

/-- Moves on from a token that is used as a name. -/
def bumpName : Read Unit := modify advance

/-- Moves on; a keyword must not be spelled with escapes. -/
def bump : Read Unit := do
  let t ← token
  match t.kind with
  | .word w => if t.escaped && isKeyword w then note .escapedKeyword
  | _ => pure ()
  modify advance

/-- Moves over the mark if it is there. -/
def eat (p : Punct) : Read Bool := do
  if ← isAt p then
    bump
    return true
  else return false

def eatWord (w : String) : Read Bool := do
  if ← atWord w then
    bump
    return true
  else return false

def expect (p : Punct) : Read Unit := do
  if ← isAt p then bump else throw (.expected p.text (← kind).text)

def expectWord (w : String) : Read Unit := do
  if ← atWord w then bump else throw (.expected w (← kind).text)

/-- A statement may end here without a semicolon. -/
def canEnd : Read Bool := do
  let t ← token
  match t.kind with
  | .punct .semicolon | .punct .rbrace | .eof => return true
  | _ => return t.fresh

/-- Ends a statement. -/
def endStatement : Read Unit := do
  if ← canEnd then
    let _ ← eat .semicolon
  else throw .missingSemicolon

/-! ## Trying -/

/-- The state after stepping back: what was learned on the way is kept, the rest is undone. -/
def restore (old new : ReadState input) : ReadState input :=
  { old with trivia := new.trivia, notArrow := new.notArrow, defaults := new.defaults,
             trailing := new.trailing }

/-- Runs a reader and steps back; a failing reader answers `default`. -/
def lookahead {α : Type} (default : α) (r : Read α) : Read α := fun s =>
  match r s with
  | .ok a s' => .ok a (restore s s')
  | .error _ s' => .ok default (restore s s')

/-- Runs a reader, and steps back when it fails. -/
def attempt {α : Type} (r : Read α) : Read (Option α) := fun s =>
  match r s with
  | .ok a s' => .ok (some a) s'
  | .error _ s' => .ok none (restore s s')

/-- Runs a reader that may step back by answering nothing. -/
def attemptSome {α : Type} (r : Read (Option α)) : Read (Option α) := fun s =>
  match r s with
  | .ok (some a) s' => .ok (some a) s'
  | .ok none s' => .ok none (restore s s')
  | .error _ s' => .ok none (restore s s')

/-- The kind of the token after the current one, and whether a line ends before it. -/
def peek : Read Token := lookahead default do
  bumpName
  token

/-- Runs a reader in another context. -/
def within {α : Type} (f : Context → Context) (r : Read α) : Read α := do
  let old ← context
  modify fun s => { s with context := f s.context }
  let a ← r
  modify fun s => { s with context := old }
  return a

/-- Runs a reader after which a certain mark has to follow, as after an open bracket. -/
def beforeMark {α : Type} (r : Read α) : Read α := do
  modify fun s => { s with opened := s.opened + 1 }
  let a ← r
  modify fun s => { s with opened := s.opened - 1 }
  return a

/-! ## Repeating -/

/-- The next state of a loop, or its result. -/
inductive Step (α : Type) where
  | more (a : α)
  | done (a : α)

/-- Repeats a step until it is done, at most `n` times. -/
def repeatFor {α : Type} (step : α → Read (Step α)) : (n : Nat) → α → Read α
  | 0, _ => throw .tooDeep
  | n + 1, a => do
    match ← step a with
    | .done b => return b
    | .more b => repeatFor step n b

/-- Repeats a step until it is done. Every round but the last takes at least one token, so the
number of characters left bounds the rounds. -/
def iterate {α : Type} (init : α) (step : α → Read (Step α)) : Read α := do
  let s ← get
  repeatFor step (s.size - s.token.start + 2) init

/-- No further item can follow: the closing mark is here, or the text ends or breaks off. -/
def atClose (close : Punct) : Read Bool := do
  match ← kind with
  | .eof | .broken => return true
  | k => return k == .punct close

/-- One more item after a separator; `acc` has the items so far, the latest first. -/
def nextItem {α : Type} (close separator : Punct) (item : Read α) (acc : List α) :
    Read (Step (List α × Bool)) := do
  if ← atClose close then return .done (acc, false)
  expect separator
  if ← isAt close then return .done (acc, true)
  let next ← item
  return .more (next :: acc, false)

/-- Items up to the closing mark, with a separator between them; also whether a separator stands
before the closing mark. A missing closing mark is left for the caller to notice. -/
def separated {α : Type} (close separator : Punct) (item : Read α) : Read (List α × Bool) := do
  if ← atClose close then return ([], false)
  let first ← item
  let (items, comma) ← iterate (([first], false) : List α × Bool) fun (acc, _) =>
    nextItem close separator item acc
  return (items.reverse, comma)

/-- Items up to the closing mark, without separators. -/
def untilMark {α : Type} (close : Punct) (item : Read α) : Read (List α) := do
  let items ← iterate ([] : List α) fun acc => do
    match ← kind with
    | .eof => return .done acc
    | k =>
      if k == .punct close then return .done acc
      let next ← item
      return .more (next :: acc)
  return items.reverse

/-! ## Nodes -/

/-- The stretch from `start` to the end of the last token. -/
def spanFrom (start : Nat) : Read Span := return ⟨start, (← get).lastStop⟩

/-- An expression that began at `start`, with the spans of its pieces. -/
def value (form : Form) (start : Nat) (children : List Node := []) (pieces : List Span := []) :
    Read Node :=
  return .mk form .value ⟨← spanFrom start, pieces⟩ children

/-- Any other part that began at `start`, with the spans of its pieces. -/
def part (form : Form) (start : Nat) (children : List Node := []) (pieces : List Span := []) :
    Read Node :=
  return .mk form .part ⟨← spanFrom start, pieces⟩ children

/-- What is read, and the stretch it was read from. -/
def located {α : Type} (r : Read α) : Read (α × Span) := do
  let s ← start
  let a ← r
  return (a, ← spanFrom s)

end Read

/-- The kinds of phrases that the grammar calls for recursively. -/
inductive Phrase where
  /-- Expressions separated by commas. -/
  | expression
  /-- An assignment or anything that binds tighter; an arrow function may state its result type. -/
  | assignment (resultType : Bool)
  /-- Operands and operators that bind tighter than the given strength. -/
  | binary (above : Strength)
  /-- An operand of a unary operator. -/
  | unary
  /-- A call, member access or anything that binds tighter. -/
  | leftHandSide
  /-- Member accesses without calls, for the operand of `new`. -/
  | newTarget
  /-- A statement; `single` where a declaration may not stand. -/
  | statement (single : Bool)
  | block
  /-- A pattern that binds names. -/
  | pattern
  | type
  /-- A union, an intersection or anything that binds tighter. -/
  | unionType
  /-- A type with operators before it. -/
  | typeOperator
  /-- An element in an expression, or in another element. -/
  | element (inside : Bool)
deriving DecidableEq, Repr, Inhabited

/-- Reads a phrase: the grammar's rules take a value of this type to call each other. -/
abbrev Descend [Source] := Phrase → Read Node

end Splice
