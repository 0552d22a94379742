import Splice.Grammar.Module

/-!
# Statements

Blocks, branches, loops, jumps, labels and the choice between statements, declarations and bare
expressions.
-/
namespace Splice

namespace Read

variable {input : Source} (go : Descend)

/-- The body of a statement, where declarations may not stand. -/
def body : Read Node := go (.statement true)

/-- An expression in parentheses. -/
def condition : Read Node := do
  expect .lparen
  let e ← go .expression
  expect .rparen
  return e

def block : Read Node := do
  let s ← start
  expect .lbrace
  let items ← untilMark .rbrace (go (.statement false))
  expect .rbrace
  part .block s items

/-! ## Branches -/

def ifStatement : Read Node := do
  let s ← start
  bump
  let test ← condition go
  let yes ← body go
  let no ← if ← eatWord "else" then body go else pure .absent
  part .ifStatement s [test, yes, no]

def caseClause : Read Node := do
  let s ← start
  let test ← match ← kind with
    | .word "default" => do
      bump
      pure Node.absent
    | .word "case" => do
      bump
      beforeMark (go .expression)
    | _ => unexpected
  expect .colon
  let items ← iterate ([] : List Node) fun acc => do
    match ← kind with
    | .eof | .punct .rbrace | .word "case" | .word "default" => return .done acc
    | _ => return .more ((← go (.statement false)) :: acc)
  part .case s (test :: items.reverse)

def switchStatement : Read Node := do
  let s ← start
  bump
  let e ← condition go
  expect .lbrace
  let cs ← untilMark .rbrace (caseClause go)
  expect .rbrace
  part .switch s (e :: cs)

/-! ## Loops -/

def doStatement : Read Node := do
  let s ← start
  bump
  let b ← body go
  expectWord "while"
  let test ← condition go
  let _ ← eat .semicolon
  part .doWhile s [b, test]

def whileStatement : Read Node := do
  let s ← start
  bump
  let test ← condition go
  let b ← body go
  part .whileStatement s [test, b]

/-- The rest of a counting loop, from its first semicolon on. -/
def forRest (s : Nat) (init : Node) (isAwait : Bool) : Read Node := do
  expect .semicolon
  match init.form with
  | .variableDecl kind _ => init.children.forM (checkInitial kind)
  | _ => pure ()
  let test ← match ← kind with
    | .punct .semicolon | .punct .rparen => pure Node.absent
    | _ => go .expression
  expect .semicolon
  let update ← if ← isAt .rparen then pure Node.absent else go .expression
  expect .rparen
  if isAwait then note .forAwaitNotOf
  let b ← body go
  part .forStatement s [init, test, update, b]

/-- The rest of a loop over keys or values, from its keyword on. -/
def forEachRest (s : Nat) (left : Node) (isAwait : Bool) : Read Node := do
  let isIn ← atWord "in"
  bump
  let right ← if isIn then go .expression else go (.assignment true)
  expect .rparen
  if isAwait && isIn then note .forAwaitNotOf
  let b ← body go
  part (if isIn then .forIn else .forOf isAwait) s [left, right, b]

/-- The keyword of a loop over keys or values comes next. -/
def isForEach : Read Bool := return (← atWord "in") || (← atWord "of")

/-- Variables that are disposed of cannot run over keys. -/
def checkUsing (kind : VariableKind) : Read Unit :=
  match kind with
  | .usingKind => note (.usingOverKeys "using")
  | .awaitUsing => note (.usingOverKeys "await using")
  | _ => pure ()

/-- A loop that declares variables; the keyword has been read. -/
def forVariables (s d : Nat) (kind : VariableKind) (isAwait : Bool) : Read Node := do
  let disposed := kind == .usingKind || kind == .awaitUsing
  let decl ← within (fun c => { c with allowIn := c.allowIn && disposed })
    (variableList go d kind false true)
  if ← isForEach then
    if ← atWord "in" then checkUsing kind
    forEachRest go s decl isAwait
  else forRest go s decl isAwait

/-- What may follow `let` in the head of a loop, if it is meant as a keyword. -/
def isLetKeyword : Read Bool := do
  if !(← atWord "let") then return false
  match (← peek).kind with
  | .punct .lbrace | .punct .lbracket => return true
  | .word w => return w != "in"
  | _ => return false

def forStatement : Read Node := do
  let s ← start
  bump
  let isAwait ← if ← atWord "await" then do
      if !(← context).inAsync then note .awaitOutside
      eatWord "await"
    else pure false
  expect .lparen
  let d ← start
  match ← kind with
  | .punct .semicolon => forRest go s .absent isAwait
  | .punct .rparen => forRest go s .absent isAwait
  | .word "var" => do
    bump
    forVariables go s d .varKind isAwait
  | .word "const" => do
    bump
    forVariables go s d .constKind isAwait
  | _ => do
    if ← isLetKeyword then
      bump
      forVariables go s d .letKind isAwait
    else if ← isUsing true then
      bump
      forVariables go s d .usingKind isAwait
    else if ← isAwaitUsing then
      bump
      bump
      forVariables go s d .awaitUsing isAwait
    else
      let next ← peek
      let asyncOf := (← atWord "async") && !(← token).escaped && next.kind == .word "of"
      let init ← within (fun c => { c with allowIn := false }) (go .expression)
      if ← isForEach then
        let target ← cover .whole init
        if !isAwait && asyncOf then note .forOfAsync
        forEachRest go s target isAwait
      else forRest go s init isAwait

/-! ## Jumps -/

/-- The label of a jump, if it stands on the same line. -/
def jumpLabel : Read (Option (String × Span)) := do
  if ← canEnd then return none
  let t ← token
  if !(← isUsableName t.kind) then unexpected
  bumpName
  return (nameWord? t.kind).map fun w => (w, ⟨t.start, t.stop⟩)

def jumpStatement (form : Option String → Form) : Read Node := do
  let s ← start
  bump
  let l ← jumpLabel
  endStatement
  part (form (l.map Prod.fst)) s [] (l.map Prod.snd).toList

def returnStatement : Read Node := do
  let s ← start
  bump
  let e ← if ← canEnd then pure .absent
    else within (fun c => { c with allowIn := true }) (go .expression)
  endStatement
  if !(← context).inFunction then note .returnOutside
  part .returnStatement s [e]

def throwStatement : Read Node := do
  let s ← start
  bump
  if ← isFresh then note .throwLineBreak
  let e ← go .expression
  endStatement
  part .throwStatement s [e]

/-! ## Others -/

def tryStatement : Read Node := do
  let s ← start
  bump
  let b ← go .block
  let h ← if ← atWord "catch" then do
      let c ← start
      bump
      let (p, caught) ← if ← eat .lparen then do
          let p ← typedPattern go false
          expect .rparen
          pure (p, [(p.child 0).span])
        else pure (.absent, [])
      let b ← go .block
      part .catchClause c [p, b] caught
    else pure .absent
  let f ← if ← eatWord "finally" then go .block else pure .absent
  if h.isAbsent && f.isAbsent then note .missingCatch
  part .tryStatement s [b, h, f]

def withStatement : Read Node := do
  let s ← start
  bump
  let e ← condition go
  let b ← body go
  part .withStatement s [e, b]

/-- A bare expression, or a label and the statement it names. -/
def expressionStatement : Read Node := do
  let s ← start
  let e ← go .expression
  match e.form with
  | .identifier w => do
    if ← eat .colon then
      let b ← body go
      part (.labeled w) s [b] [e.span]
    else
      endStatement
      part .expressionStatement s [e]
  | _ => do
    endStatement
    part .expressionStatement s [e]

/-- Variables, which may not stand alone as the body of another statement if they are block
scoped. -/
def scopedVariables (s : Nat) (kind : VariableKind) (single : Bool) : Read Node := do
  let d ← variableStatement go s kind false
  if single && kind != .varKind then note .lexicalSingle
  return d

/-- A statement that begins with `let`, which may also be a name. As a name it begins an expression
that needs no semicolon after it. -/
def letStatement (single : Bool) : Read Node := do
  let s ← start
  let next ← peek
  let isOperator := (operatorOf next.kind).any Operator.isBinary || (assignOf next.kind).isSome
  let access := next.kind == .punct .dot || next.kind == .punct .lparen
  let alone := next.kind == .punct .semicolon || (single && next.kind != .punct .lbracket)
  if isOperator || access || alone then
    let e ← if isOperator then go (.assignment true)
      else if access then go .expression
      else identifier
    part .expressionStatement s [e]
  else
    bump
    scopedVariables go s .letKind single

/-- A function as a statement. -/
def functionStatement (single : Bool) : Read Node := do
  let s ← start
  let async ← eatWord "async"
  let f ← keywordFunction go s { role := .declaration, async } true
  if single then
    if async then note .asyncFunctionSingle
    match f.form with
    | .function t => if t.generator then note .generatorSingle
    | _ => pure ()
  return f

/-- A statement that begins with decorators. -/
def decoratedStatement : Read Node := do
  let s ← start
  let ds ← decorators go
  if ← atWord "export" then exportStatement go s ds
  else
    let ms ← if ← isTyped then declarationModifiers else pure []
    if ← atWord "class" then modifiedDeclaration go s ms ds else unexpected

/-- The words that begin a declaration in typed sources. -/
def typedWords : List String :=
  ["interface", "type", "module", "namespace", "declare", "enum", "private", "protected", "public",
   "abstract", "accessor", "static", "readonly", "global", "async"]

/-- A declaration begins with the word, in typed sources. -/
def isTypedDeclaration (w : String) : Read Bool := do
  if (← isTyped) && typedWords.contains w then beginsDeclaration else return false

/-- A statement that begins with a word that may be a name. -/
def nameStatement (w : String) (single : Bool) : Read Node := do
  let s ← start
  if ← isFunctionKeyword then functionStatement go single
  else if ← isUsing false then
    bump
    variableStatement go s .usingKind false
  else if ← isAwaitUsing then
    bump
    bump
    variableStatement go s .awaitUsing false
  else if ← isTypedDeclaration w then declarationStatement go s []
  else expressionStatement go

/-- A statement that begins with a word. -/
def wordStatement (w : String) (single : Bool) : Read Node := do
  let s ← start
  match w with
  | "if" => ifStatement go
  | "do" => doStatement go
  | "while" => whileStatement go
  | "for" => forStatement go
  | "continue" => jumpStatement .continueStatement
  | "break" => jumpStatement .breakStatement
  | "with" => withStatement go
  | "switch" => switchStatement go
  | "throw" => throwStatement go
  | "try" => tryStatement go
  | "return" => returnStatement go
  | "debugger" => do
    bump
    endStatement
    part .debugger s
  | "class" => do
    let c ← classRest go s [] {}
    if single then note .classSingle
    return c
  | "export" => exportStatement go s []
  | "import" => do
    match (← peek).kind with
    | .punct .lparen | .punct .dot => expressionStatement go
    | _ => importStatement s
  | "var" => do
    bump
    scopedVariables go s .varKind single
  | "const" => do
    bump
    if (← isTyped) && (← atWord "enum") then enumDeclaration go s true false
    else scopedVariables go s .constKind single
  | "let" => if (← token).escaped then expressionStatement go else letStatement go single
  | "function" => functionStatement go single
  | _ => nameStatement go w single

/-- Marks the function that a statement declares as free of side effects. -/
def markInertStatement (n : Node) : Node :=
  let first (cs : List Node) (f : Node → Node) : List Node :=
    match cs with
    | c :: rest => f c :: rest
    | [] => []
  let inVariables (n : Node) : Node :=
    match n.form with
    | .variableDecl .constKind _ => n.withChildren (first n.children fun d =>
        match d.children with
        | [b, v] => d.withChildren [b, markInert v]
        | _ => d)
    | _ => n
  let declared (n : Node) : Node :=
    match n.form with
    | .function _ => markInert n
    | _ => inVariables n
  match n.form with
  | .exportDefault => n.withChildren (first n.children fun c =>
      match c.form with
      | .function _ => markInert c
      | _ => c)
  | .exportNamed _ _ _ => n.withChildren (first n.children declared)
  | _ => declared n

/-- Any statement; `single` where a declaration may not stand. -/
def statement (single : Bool) : Read Node := do
  let t ← token
  let n ← match t.kind with
    | .punct .lbrace => go .block
    | .punct .semicolon => do
      bump
      part .emptyStatement t.start
    | .punct .atSign => decoratedStatement go
    | .word w => wordStatement go w single
    | _ => expressionStatement go
  return if t.inert then markInertStatement n else n

end Read

end Splice
