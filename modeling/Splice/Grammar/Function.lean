import Splice.Grammar.Target
import Splice.Grammar.Type

/-!
# Functions

Functions in all their roles, their bodies with the directives at the start, and arrow functions.
-/
namespace Splice

namespace Read

variable {input : Source} (go : Descend)

/-! ## Bodies -/

/-- A statement that is nothing but a string is a directive; parentheses around the string make it
an ordinary statement. -/
def asDirective (source : List Char) (n : Node) : Option Node :=
  match n.form, n.children with
  | .expressionStatement, [e] =>
    match e.form with
    | .string _ _ =>
      let raw := (source.drop (e.start + 1)).take (e.stop - e.start - 2)
      some (.mk (.directive (String.ofList raw)) .part ⟨n.span, [e.span]⟩ [])
    | _ => none
  | _, _ => none

/-- One more statement, unless a closing brace or the end of the text comes next. The strings at the
start become directives. -/
def nextStatement (whole : Bool) (acc : List Node) (first : Bool) :
    Read (Step (List Node × Bool)) := do
  match ← kind with
  | .eof => return .done (acc, first)
  | k =>
    if k == .punct .rbrace && !whole then return .done (acc, first)
    let n ← go (.statement false)
    if first then
      match asDirective (← get).source n with
      | some d => return .more (d :: acc, true)
      | none => return .more (n :: acc, false)
    else return .more (n :: acc, false)

/-- Statements up to the closing brace, or to the end of the text for a whole program. -/
def statements (whole : Bool) : Read (List Node) := do
  let (items, _) ← iterate (([], true) : List Node × Bool) fun (acc, first) =>
    nextStatement go whole acc first
  return items.reverse

/-- The body of a function in braces, where everything is allowed again. -/
def functionBody : Read Node := do
  let s ← start
  expect .lbrace
  let items ← within (fun c => { c with allowIn := true, inFunction := true })
    (statements go false)
  expect .rbrace
  part .functionBody s items

/-! ## Functions with a keyword, and methods -/

/-- The name of a function, if it has one. In an expression the name is already subject to the
function's own context. -/
def functionName (role : FunctionRole) (required async generator : Bool) : Read Node := do
  match ← kind with
  | .word w =>
    if isReservedWord w then
      if required then throw (.expected "Identifier" w)
      return .absent
    let t ← token
    let c ← context
    checkName w (if role == .expression then { c with inAsync := async, inGenerator := generator }
      else c)
    bumpName
    return .mk (.name w) .part ⟨⟨t.start, t.stop⟩, []⟩ []
  | k =>
    if required && k == .punct .lparen then note .functionName
    return .absent

/-- Everything of a function that follows its name. Only typed sources have functions without a
body. -/
def functionRest (s : Nat) (name : Node) (traits : FunctionTraits) (bodiless : Bool) :
    Read Node := do
  let (parts, colon) ← within
    (fun c => { c with allowIn := true, inAsync := traits.async, inGenerator := traits.generator })
    do
      let tps ← typeParameters go
      let (this, ps) ← parameters go (traits.role == .method && bodiless)
      let (result, colon) ← resultMark go
      let body ← if ← isAt .lbrace then functionBody go else pure .absent
      return ([tps, this, ps, result, body], colon)
  let hasBody := (parts.getLastD .absent).isPresent
  if !hasBody then
    if (← isTyped) && bodiless then endStatement else unexpected
  let form := Form.function traits
  if traits.role == .expression || traits.role == .method && !bodiless then
    value form s (name :: parts) colon
  else part form s (name :: parts) colon

/-- A function from its keyword on; `s` is where its modifiers began. -/
def keywordFunction (s : Nat) (traits : FunctionTraits) (required : Bool) : Read Node := do
  expectWord "function"
  let generator ← eat .star
  let name ← functionName traits.role required traits.async generator
  functionRest go s name { traits with generator } (traits.role == .declaration)

/-- The current words are `async function` on one line, or `function`. -/
def isFunctionKeyword : Read Bool := do
  if ← atWord "function" then return true
  if !(← atWord "async") then return false
  let next ← peek
  return next.kind == .word "function" && !next.fresh

def functionExpression : Read Node := do
  let s ← start
  let async ← eatWord "async"
  keywordFunction go s { role := .expression, async } false

/-! ## Getters and setters -/

/-- A getter has no parameters, a setter exactly one. -/
def checkAccessor (kind : PropertyKind) (f : Node) : Read Unit := do
  let ps := (f.child 3).children
  let hasRest := ps.any fun p => match p.form with
    | .restElement => true
    | _ => false
  match kind with
  | .get => if !ps.isEmpty then note .getterParameters
  | .set =>
    if hasRest then note .setterRest
    else if ps.length != 1 then note .setterParameters
  | .init => pure ()

/-! ## Arrow functions -/

/-- Whether an arrow function begins here, as far as a few tokens show. -/
inductive Guess where
  | yes | no | maybe
deriving DecidableEq

/-- Words that may stand before a parameter. -/
def parameterWords : List String :=
  ["public", "private", "protected", "readonly", "override", "static", "declare", "abstract",
   "accessor", "const", "in", "out", "export", "default"]

/-- Looks at the tokens after an opening parenthesis. -/
def guessParens : Read Guess := do
  let second ← kind
  match second with
  | .punct .rparen => do
    bump
    match ← kind with
    | .punct .arrow | .punct .colon | .punct .lbrace => return .yes
    | _ => return .no
  | .punct .lbracket | .punct .lbrace => return .maybe
  | .punct .ellipsis => do
    bump
    match ← kind with
    | .word _ => return .yes
    | .punct .lbracket | .punct .lbrace => return .maybe
    | _ => return .no
  | .word w => do
    bumpName
    let third ← kind
    if parameterWords.contains w && isName third then
      return if third == .word "as" then .no else .yes
    if !isName second && w != "this" then return .no
    match third with
    | .punct .colon => return .yes
    | .punct .question => do
      bump
      match ← kind with
      | .punct .colon | .punct .comma | .punct .eq | .punct .rparen => return .yes
      | _ => return .no
    | .punct .comma | .punct .eq | .punct .rparen => return .maybe
    | _ => return .no
  | _ => return .no

/-- Looks at the tokens after an opening angle bracket. Where elements may stand, a type parameter
shows itself by what follows it. -/
def guessAngle : Read Guess := do
  let second ← kind
  if !isName second && second != .word "const" then return .no
  if (← language).elements then
    if ← eatWord "const" then return .yes
    bumpName
    match ← kind with
    | .word "extends" => do
      bump
      match ← kind with
      | .punct .eq | .punct .gt | .punct .slash => return .no
      | _ => return .yes
    | .punct .comma | .punct .eq => return .yes
    | _ => return .no
  else return .maybe

/-- Guesses from the first tokens whether an arrow function with parentheses begins. -/
def guessArrow : Read Guess := lookahead .no do
  if ← atWord "async" then
    bumpName
    if ← isFresh then return .no
  match ← kind with
  | .punct .lparen => do
    bump
    guessParens
  | .punct .lt => do
    if !(← isTyped) then return .no
    bump
    guessAngle
  | _ => return .no

/-- What stands before the body of an arrow function. -/
structure ArrowHead where
  start : Nat
  async : Bool
  typeParameters : Node
  parameters : Node
  result : Node
  /-- The stretch of the result type from its colon on. -/
  colon : List Span

/-- Moves over an arrow, which may not begin a line. -/
def arrow : Read Unit := do
  if ← isFresh then note .arrowLineBreak
  expect .arrow

/-- The type parameters, the parameters in parentheses and the result type of an arrow function. -/
def arrowSignature : Read (Node × Node × Node × List Span) := do
  let tps ← typeParameters go
  let (this, ps) ← parameters go false
  if this.isPresent then note .arrowThis
  let (result, colon) ← resultMark go
  return (tps, ps, result, colon)

/-- What stands before the arrow, and the arrow. -/
def arrowHead : Read ArrowHead := do
  let s ← start
  let async ← eatWord "async"
  let (tps, ps, result, colon) ← within (fun c => { c with inAsync := c.inAsync || async })
    (arrowSignature go)
  arrow
  return { start := s, async, typeParameters := tps, parameters := ps, result, colon }

/-- The body after the arrow. An expression is the only statement of a body of its own. -/
def arrowBody (h : ArrowHead) (resultType : Bool) : Read Node := do
  let bare := !(← isAt .lbrace)
  let body ← within (fun c => { c with inAsync := h.async, inGenerator := false }) do
    if bare then go (.assignment resultType) else functionBody go
  let pieces := if bare then [body.span, body.span] else []
  value (.arrow { async := h.async, bare }) h.start [h.typeParameters, h.parameters, h.result, body]
    (h.colon ++ pieces)

/-- A parameter list of a single name. -/
def soleParameter (name : String) (span : Span) : Node :=
  let b : Node := .mk (.binding false) .part span [.mk (.bindingName name) .part span [], .absent]
  .mk .parameters .part span [.mk (.parameter none false false) .part span [.group [], b]]

/-- An arrow function whose parameter is a single name without parentheses. -/
def soleArrow (s : Nat) (async : Bool) (name : String) (span : Span) (resultType : Bool) :
    Read Node := do
  arrow
  let h : ArrowHead :=
    { start := s
      async
      typeParameters := .absent
      parameters := soleParameter name span
      result := .absent
      colon := [] }
  arrowBody go h resultType

/-- An arrow function with parentheses, if one begins here. A result type can be mistaken for the
rest of a conditional, so where that is possible another colon has to follow. -/
def parenthesizedArrow (resultType : Bool) : Read (Option Node) := do
  match ← guessArrow with
  | .no => return none
  | .yes => do
    let h ← arrowHead go
    return some (← arrowBody go h true)
  | .maybe => do
    let pos ← start
    if (← get).notArrow.contains pos then return none
    let before ← get
    match ← attempt (arrowHead go) with
    | none => do
      modify fun s => { s with notArrow := pos :: s.notArrow }
      return none
    | some h => do
      let f ← arrowBody go h resultType
      if !resultType && h.result.isPresent && !(← isAt .colon) then
        modify fun s => { restore before s with notArrow := pos :: s.notArrow }
        return none
      else return some f

/-- An arrow function that begins with `async` and a name, if one begins here. -/
def asyncSoleArrow (resultType : Bool) : Read (Option Node) := do
  if !(← atWord "async") then return none
  let is ← lookahead false do
    bumpName
    if (← isFresh) || !isName (← kind) then return false
    bumpName
    isAt .arrow
  if !is then return none
  let s ← start
  bump
  let (w, span) ← bindingWord
  return some (← soleArrow go s true w span resultType)

end Read

end Splice
