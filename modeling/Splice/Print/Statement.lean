import Splice.Print.Type

/-!
# Printing statements

`statement` prints a statement with the comments before it, its indentation and its end; the other
rules print what stands between these.
-/
namespace Splice

namespace Print

open Emit

/-! ## Statements in place -/

/-- How a statement ends. -/
inductive Ending where
  /-- A semicolon and the end of the line. -/
  | semicolon
  /-- A semicolon alone. -/
  | mark
  | newline | nothing
deriving DecidableEq

def ending : Form → Ending
  | .expressionStatement | .variableDecl _ _ | .returnStatement | .throwStatement | .breakStatement _
  | .continueStatement _ | .debugger | .doWhile | .importDecl _ _ _ _ _ _ | .exportAll _ _ _ _ _
  | .exportAssign | .exportNamespace _ | .importEquals _ _ | .typeAlias _ => .semicolon
  | .block | .function _ | .classDef _ | .switch | .tryStatement | .interface _ | .enumDecl _ _
  | .moduleDecl _ _ | .globalDecl _ => .newline
  | _ => .nothing

/-- The name `let` alone, which only its semicolon tells from a declaration. -/
def isLet (n : Node) : Bool :=
  match n.innermost.form with
  | .identifier "let" => true
  | _ => false

/-- How a statement ends in its place. -/
def endingOf (n : Node) : Ending :=
  match n.form with
  | .expressionStatement => if isLet (n.child 0) then .mark else .semicolon
  | form => ending form

def finish : Ending → Emit
  | .semicolon => endStatement
  | .mark => Emit.semicolon
  | .newline => softNewline
  | .nothing => pure ()

/-- Where the comments before a statement are printed. -/
inductive CommentPlace where
  /-- On lines of their own, then the indentation of the statement. -/
  | before
  /-- After the indentation. -/
  | inside
  | nowhere
deriving DecidableEq

def commentPlace : Form → CommentPlace
  | .interface _ | .typeAlias _ | .enumDecl _ _ | .importEquals _ _ => .inside
  | .exportAssign | .exportNamespace _ => .nowhere
  | _ => .before

/-- The mark of a declared function without side effects stands on a line of its own. -/
def inertLine (p : Piece) : Emit :=
  match p.form with
  | .function t => do
    if t.pure then
      indent
      text inertMark
      newline
  | _ => pure ()

def statement (p : Piece) (spot : Spot) : Emit := do
  if commentPlace p.form == .before then commentsAt p.start
  inertLine p
  indent
  if commentPlace p.form == .inside then commentsAt p.start
  p.emit spot.inside
  finish (endingOf p.tree)

/-- Statements one after the other. -/
def statementList (ps : List Piece) (spot : Spot) : Emit := ps.forM fun p => do
  owedSemicolon
  statement p spot

/-- The quotes of a directive: the first quote in its text, unless it is escaped, decides. -/
def directiveQuote : List Char → Char
  | [] => '\x22'
  | '\\' :: _ :: r => directiveQuote r
  | c :: r =>
    if c == '\x22' then '\x27' else if c == '\x27' then '\x22' else directiveQuote r

def directive (raw : String) : Emit := do
  let q := directiveQuote raw.toList
  char q
  text raw
  char q

/-- A statement that is nothing but a string. -/
def bareString (p : Piece) : Option Piece :=
  match p.form, p.parts with
  | .expressionStatement, [e] =>
    match e.tree.withoutParens.form with
    | .string _ _ => some e
    | _ => none
  | _, _ => none

/-- Statements that follow directives or nothing. A string at the start must not become a
directive, so it gets parentheses. -/
def openingStatements (afterDirective : Bool) (ps : List Piece) (spot : Spot) : Emit := do
  match ps with
  | [] => pure ()
  | p :: rest =>
    match bareString p, afterDirective, (← get).minify with
    | some e, false, false => do
      wrap true e.plain
      endStatement
      statementList rest spot
    | _, _, _ => statementList ps spot

def isDirective (p : Piece) : Bool :=
  match p.form with
  | .directive _ => true
  | _ => false

def directiveCount (ps : List Piece) : Nat := (ps.takeWhile isDirective).length

/-- The directives before the statements. -/
def directives (ps : List Piece) : Emit := (ps.takeWhile isDirective).forM fun d => do
  indent
  d.plain
  semicolon
  softNewline

/-- Directives, then statements. -/
def directivesAndStatements (ps : List Piece) (spot : Spot) : Emit := do
  directives ps
  openingStatements (directiveCount ps != 0) (ps.drop (directiveCount ps)) spot

/-! ## Bodies -/

/-- A block in braces. -/
def block (ps : List Piece) (spot : Spot) : Emit := do
  braces ps.isEmpty (statementList ps spot)
  settled

/-- The body of another statement: a block goes on the same line, and so does anything else. -/
def bodyOf (p : Piece) (apart : Bool) (spot : Spot) : Emit := do
  match p.form with
  | .block => do
    softSpace
    p.emit spot.inside
    softNewline
  | .emptyStatement => do
    semicolon
    softNewline
  | _ => do
    if apart && (← get).minify then space
    modify fun o => { o with indentAsSpace := true }
    statement p spot

def functionBody (span : Span) (ps : List Piece) (spot : Spot) : Emit :=
  body span ps.isEmpty (directivesAndStatements ps spot)

/-! ## Branches -/

mutual

/-- An `else` after this statement would be taken for its own. -/
def swallowsElse : Node → Bool
  | .mk form _ _ cs =>
    match form with
    | .ifStatement => swallowsElseAt 2 true cs
    | .forStatement => swallowsElseAt 3 false cs
    | .forIn => swallowsElseAt 2 false cs
    | .forOf _ => swallowsElseAt 2 false cs
    | .whileStatement => swallowsElseAt 1 false cs
    | .withStatement => swallowsElseAt 1 false cs
    | .labeled _ => swallowsElseAt 0 false cs
    | _ => false

/-- The same for the child with the given number, which may be missing. -/
def swallowsElseAt : Nat → (whenAbsent : Bool) → List Node → Bool
  | _, whenAbsent, [] => whenAbsent
  | 0, whenAbsent, c :: _ => if c.isAbsent then whenAbsent else swallowsElse c
  | n + 1, whenAbsent, _ :: cs => swallowsElseAt n whenAbsent cs

end

def isBlock (p : Piece) : Bool :=
  match p.form with
  | .block => true
  | _ => false

def isIf (p : Piece) : Bool :=
  match p.form with
  | .ifStatement => true
  | _ => false

def ifStatement (test yes no : Piece) (spot : Spot) : Emit := do
  word "if"
  softSpace
  char '('
  test.plain
  char ')'
  let goOn : Emit := if no.isPresent then softSpace else softNewline
  if isBlock yes then
    softSpace
    yes.emit spot.inside
    goOn
  else if swallowsElse yes.tree then
    softSpace
    braces false (statement yes spot)
    settled
    goOn
  else
    bodyOf yes false spot
    if no.isPresent then indent
  if no.isPresent then
    owedSemicolon
    word "else"
    if isBlock no then
      softSpace
      no.emit spot.inside
      softNewline
    else if isIf no then
      space
      no.emit spot.inside
    else bodyOf no true spot

def caseClause (test : Piece) (ps : List Piece) (spot : Spot) : Emit := do
  owedSemicolon
  indent
  if test.isPresent then
    text "case"
    softSpace
    test.plain
  else text "default"
  char ':'
  match ps with
  | [p] => bodyOf p false spot
  | _ => do
    softNewline
    deeper
    statementList ps spot
    shallower

def switchStatement (e : Piece) (cases : List Piece) (spot : Spot) : Emit := do
  word "switch"
  softSpace
  char '('
  e.plain
  char ')'
  softSpace
  braces cases.isEmpty (cases.forM fun c => c.emit spot.inside)
  settled

/-! ## Loops -/

def forStatement (init test update b : Piece) (spot : Spot) : Emit := do
  word "for"
  softSpace
  char '('
  init.emit { noIn := true }
  semicolon
  test.after softSpace
  semicolon
  update.after softSpace
  char ')'
  bodyOf b false spot

/-- What a loop assigns to. The name `async` would be taken for a keyword. -/
def loopTarget (left : Piece) : Emit :=
  let isAsync := match left.form with
    | .identifier "async" => true
    | _ => false
  wrap isAsync left.plain

def forIn (left right b : Piece) (spot : Spot) : Emit := do
  word "for"
  softSpace
  char '('
  loopTarget left
  softSpace
  word "in"
  softSpace
  right.plain
  char ')'
  bodyOf b false spot

def forOf (isAwait : Bool) (left right b : Piece) (spot : Spot) : Emit := do
  word "for"
  if isAwait then text " await"
  softSpace
  char '('
  loopTarget left
  softSpace
  word "of"
  softSpace
  right.item
  char ')'
  bodyOf b false spot

def whileStatement (test b : Piece) (spot : Spot) : Emit := do
  word "while"
  softSpace
  char '('
  test.plain
  char ')'
  bodyOf b false spot

def doWhile (b test : Piece) (spot : Spot) : Emit := do
  word "do"
  match b.form with
  | .block => do
    softSpace
    b.emit spot.inside
    softSpace
  | .emptyStatement => statement b spot
  | _ => do
    softNewline
    deeper
    statement b spot
    owedSemicolon
    shallower
    indent
  word "while"
  softSpace
  char '('
  test.plain
  char ')'

/-! ## Jumps -/

/-- A keyword with an expression after it. -/
def keywordStatement (w : String) (e : Piece) : Emit := do
  word w
  e.after softSpace

def jump (w : String) (label : Option String) : Emit := do
  word w
  match label with
  | some l => do
    space
    text l
  | none => pure ()

def labeled (label : String) (b : Piece) (spot : Spot) : Emit := do
  word label
  char ':'
  bodyOf b false spot

/-! ## Others -/

def expressionStatement (e : Piece) : Emit := do
  modify fun o => { o with statementStart := o.size }
  e.plain

def variableList (kind : VariableKind) (declare : Bool) (ds : List Piece) (spot : Spot) : Emit := do
  if declare then
    word "declare"
    space
  word kind.text
  softSpace
  list (fun d => d.emit spot) ds

def declarator (definite : Bool) (b v : Piece) (spot : Spot) : Emit := do
  match b.form with
  | .binding o => do
    (b.part 0).plain
    if definite then char '!'
    if o then char '?'
    (b.part 1).after colon
  | _ => b.plain
  if v.isPresent then
    equals
    v.emit { spot with strength := .comma }

def catchClause (start : Nat) (param b : Piece) (spot : Spot) : Emit := do
  commentsAt start
  text "catch"
  if param.isPresent then
    softSpace
    char '('
    param.plain
    char ')'
  softSpace
  commentsAt b.start
  b.emit spot.inside

def tryStatement (b handler finalizer : Piece) (spot : Spot) : Emit := do
  word "try"
  softSpace
  b.emit spot.inside
  if handler.isPresent then
    softSpace
    handler.emit spot.inside
  if finalizer.isPresent then
    softSpace
    text "finally"
    softSpace
    finalizer.emit spot.inside

def withStatement (e b : Piece) (spot : Spot) : Emit := do
  word "with"
  char '('
  e.plain
  char ')'
  bodyOf b false spot

end Print

end Splice
