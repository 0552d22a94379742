import Splice.Node.Basic
import Splice.Text.Blank
import Splice.Text.Name
import Splice.Text.Quoted
import Splice.Token.Comment

/-!
# Output

The text printed so far, and what printing the next piece depends on: the indentation, a semicolon
that is still owed, the places where a statement or an arrow body began, and the comments that have
not been printed yet.
-/
namespace Splice

/-- An operator whose marks can run into those of the next one. -/
inductive OperatorMark where
  | unary (op : UnaryOp)
  | update (op : UpdateOp)
  | binary (op : BinaryOp)
deriving DecidableEq, Repr, Inhabited

structure Out where
  /-- The latest character first. -/
  text : List Char := []
  size : Nat := 0
  minify : Bool := false
  /-- Elements may stand among the expressions. -/
  elements : Bool := false
  /-- Marks for calls and functions without side effects are printed. -/
  marks : Bool := true
  indent : Nat := 0
  /-- The next indentation is a single space, because something stands on the line already. -/
  indentAsSpace : Bool := false
  /-- A semicolon has to come before the next statement. -/
  owesSemicolon : Bool := false
  /-- The latest operator and where it ended. -/
  lastOperator : Option OperatorMark := none
  operatorEnd : Nat := 0
  regexpEnd : Nat := 0
  /-- Where a number ended that a dot would continue. -/
  numberEnd : Nat := 0
  statementStart : Nat := 0
  arrowStart : Nat := 0
  defaultStart : Nat := 0
  /-- The comments that lead a token, in order. -/
  comments : List Comment := []
deriving Inhabited

abbrev Emit := StateM Out Unit

namespace Emit

/-! ## Characters -/

def char (c : Char) : Emit := modify fun o => { o with text := c :: o.text, size := o.size + 1 }

def chars (cs : List Char) : Emit :=
  modify fun o => { o with text := cs.reverse ++ o.text, size := o.size + cs.length }

def text (s : String) : Emit := chars s.toList

def space : Emit := char ' '

/-- A space that is left out when minifying. -/
def softSpace : Emit := do if !(← get).minify then space

def newline : Emit := char '\n'

def softNewline : Emit := do if !(← get).minify then newline

def semicolon : Emit := char ';'

/-- A comma between items. -/
def comma : Emit := do
  char ','
  softSpace

/-- A colon before a type or a value. -/
def colon : Emit := do
  char ':'
  softSpace

/-- An equals sign. -/
def equals : Emit := do
  softSpace
  char '='
  softSpace

/-! ## Indentation -/

/-- Begins a line, or goes on after what stands on it. -/
def indent : Emit := do
  let o ← get
  if o.minify then return
  if o.indentAsSpace then
    space
    modify fun o => { o with indentAsSpace := false }
  else chars (List.replicate o.indent '\t')

def deeper : Emit := modify fun o => { o with indent := o.indent + 1 }

def shallower : Emit := modify fun o => { o with indent := o.indent - 1 }

/-- Ends a statement; when minifying, the semicolon waits for the next statement. -/
def endStatement : Emit := do
  if (← get).minify then modify fun o => { o with owesSemicolon := true }
  else text ";\n"

def settled : Emit := modify fun o => { o with owesSemicolon := false }

/-- The semicolon that is owed, if any. -/
def owedSemicolon : Emit := do
  if (← get).owesSemicolon then
    semicolon
    settled

/-! ## Spaces that keep tokens apart -/

/-- A space if a word printed now would run into the text before it. -/
def spaceBeforeWord : Emit := do
  let o ← get
  match o.text with
  | [] => pure ()
  | c :: _ => if o.regexpEnd == o.size || NameChar.isPart c then space

/-- The marks of two operators that would read as another one. -/
def collides (last next : OperatorMark) (before : List Char) : Bool :=
  let plus := last == .binary .add || last == .unary .plus
  let minus := last == .binary .sub || last == .unary .minus
  (plus && (next == .binary .add || next == .unary .plus || next == .update .increment)) ||
  (minus && (next == .binary .sub || next == .unary .minus || next == .update .decrement)) ||
  (last == .update .decrement && next == .binary .gt) ||
  (last == .unary .not && next == .update .decrement && before.getD 1 ' ' == '<')

def spaceBeforeOperator (next : OperatorMark) : Emit := do
  let o ← get
  match o.lastOperator with
  | some last => if o.operatorEnd == o.size && collides last next o.text then space
  | none => pure ()

/-- Remembers the operator that was just printed. -/
def afterOperator (op : OperatorMark) : Emit :=
  modify fun o => { o with lastOperator := some op, operatorEnd := o.size }

/-- A word, kept apart from the text before it. -/
def word (s : String) : Emit := do
  spaceBeforeWord
  text s

/-! ## Brackets -/

/-- Puts parentheses around a piece if needed. -/
def wrap (needed : Bool) (piece : Emit) : Emit := do
  if needed then
    char '('
    piece
    char ')'
  else piece

/-- Braces around lines of their own, or around nothing. -/
def braces (oneLine : Bool) (inner : Emit) : Emit := do
  char '{'
  if !oneLine then
    softNewline
    deeper
  inner
  if !oneLine then
    shallower
    indent
  char '}'

/-- Items with commas between them. -/
def list {α : Type} (item : α → Emit) : List α → Emit
  | [] => pure ()
  | [x] => item x
  | x :: y :: rest => do
    item x
    comma
    list item (y :: rest)

/-! ## Comments -/

/-- Whether a comment leads the token at the given position. -/
def hasComment (pos : Nat) : StateM Out Bool :=
  return (← get).comments.any fun c => c.leads == some pos

/-- Takes the comments that lead the token at the given position. -/
def takeComments (pos : Nat) : StateM Out (List Comment) := do
  let o ← get
  if o.comments.isEmpty then return []
  let (here, rest) := o.comments.partition fun c => c.leads == some pos
  set { o with comments := rest }
  return here

/-- The lines of a text. -/
def linesFrom : (line : List Char) → List Char → List (List Char)
  | line, [] => [line.reverse]
  | line, c :: cs =>
    if Blank.isLineEnd c then line.reverse :: linesFrom [] cs else linesFrom (c :: line) cs

/-- A comment; the lines of a block comment get the current indentation. -/
def comment (c : Comment) : Emit := do
  if c.isBlock then
    for line in linesFrom [] c.text do
      if !startsWith line "/*" then indent
      chars (Quoted.breakScript (line.dropWhile Blank.isBlank))
      if !(startsWith line.reverse "/*") then newline
  else chars (Quoted.breakScript c.text)

/-- The line that the first of some comments stands on. -/
def beginComments (c : Comment) : Emit := do
  if c.newlineBefore then
    match (← get).text with
    | [] => pure ()
    | '\n' :: _ => indent
    | '\t' :: _ => pure ()
    | _ => do
      newline
      indent
  else indent

/-- Comments after the first of a row. -/
def moreComments : (last : Comment) → List Comment → Emit
  | last, [] => do
    if !last.isBlock || last.newlineAfter then newline
    else modify fun o => { o with indentAsSpace := true }
  | _, c :: cs => do
    if c.newlineBefore then
      newline
      indent
    else if c.content == .legal then newline
    comment c
    moreComments c cs

def printComments : List Comment → Emit
  | [] => pure ()
  | c :: cs => do
    beginComments c
    comment c
    moreComments c cs

/-- The comments that lead the token at the given position. -/
def commentsAt (pos : Nat) : Emit := do printComments (← takeComments pos)

/-- The comments before an argument, each on a line of its own; whether there are any. -/
def argumentComments (pos : Nat) : StateM Out Bool := do
  let cs ← takeComments pos
  for c in cs do
    newline
    indent
    comment c
  if cs.isEmpty then return false
  newline
  return true

end Emit

end Splice
