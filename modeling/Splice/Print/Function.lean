import Splice.Print.Expression

/-!
# Printing functions and classes

Patterns and parameters, functions, arrow functions, methods and classes.
-/
namespace Splice

namespace Print

open Emit

/-! ## Patterns -/

/-- A pattern with its optional mark and type. -/
def binding (isOptional : Bool) (pattern type : Piece) : Emit := do
  pattern.plain
  if isOptional then char '?'
  type.after colon

/-- The name that a binding introduces, looking through a default value. -/
def boundName (n : Node) : Option String :=
  let direct (n : Node) : Option String := match n.form with
    | .binding _ => match (n.child 0).form with
      | .bindingName w => some w
      | _ => none
    | _ => none
  match n.form with
  | .defaultPattern => direct (n.child 0)
  | _ => direct n

def bindingProperty (computed : Bool) (k v : Piece) : Emit := do
  let same := match k.form with
    | .name w => boundName v.tree == some w
    | _ => false
  if !same then
    key k computed
    colon
  v.plain

def isRest (p : Piece) : Bool :=
  match p.form with
  | .restElement | .targetRest => true
  | _ => false

/-- Properties with commas between them; no space stands before a rest. -/
def propertyItems : List Piece → Emit
  | [] => pure ()
  | [p] => p.plain
  | p :: q :: rest => do
    p.plain
    char ','
    if !isRest q then softSpace
    propertyItems (q :: rest)

def objectPattern (items : List Piece) : Emit := do
  char '{'
  if !items.isEmpty then
    softSpace
    propertyItems items
    softSpace
  char '}'

/-- Elements of an array pattern or target. A hole at the end needs a comma after it. -/
def holedItems : List Piece → Emit
  | [] => pure ()
  | [p] => do
    p.plain
    match p.form with
    | .hole => char ','
    | _ => pure ()
  | p :: q :: rest => do
    p.plain
    comma
    holedItems (q :: rest)

/-- A space stands before a rest, also before one that is alone. -/
def arrayPattern (items : List Piece) : Emit := do
  char '['
  match items.map Piece.form with
  | [.restElement] => softSpace
  | _ => pure ()
  holedItems items
  char ']'

/-- A target or pattern with its default value. -/
def withDefault (target v : Piece) : Emit := do
  target.plain
  equals
  v.item

def rest (p : Piece) : Emit := do
  text "..."
  p.plain

def objectTarget (items : List Piece) : Emit := do
  char '{'
  propertyItems items
  char '}'

def targetShorthand (name v : Piece) : Emit := do
  name.plain
  if v.isPresent then
    equals
    v.item

/-- The name that a target assigns to, looking through a default value. -/
def assignedName (n : Node) : Option String :=
  let direct (n : Node) : Option String := match n.form with
    | .identifier w => some w
    | _ => none
  match n.form with
  | .targetDefault => direct (n.child 0)
  | _ => direct n

def targetProperty (computed : Bool) (k target : Piece) : Emit := do
  let same := match k.form with
    | .name w => assignedName target.tree == some w
    | _ => false
  if !(same && (← get).minify) then
    if computed then char '['
    k.item
    if computed then char ']'
    colon
  target.plain

/-! ## Parameters -/

def decoratorList (ds : List Piece) : Emit := ds.forM fun d => do
  d.plain
  space

mutual

/-- A name or member access needs no parentheses after the decorator mark, nor do calls of such. -/
def isPlainDecorator : Node → Bool
  | .mk form _ _ cs =>
    match form with
    | .identifier _ => true
    | .member _ _ => true
    | .privateMember _ _ => true
    | .call _ _ => isPlainDecoratorFirst cs
    | _ => false

/-- The same for the first child. -/
def isPlainDecoratorFirst : List Node → Bool
  | [] => false
  | c :: _ => isPlainDecorator c

end

def decorator (e : Piece) : Emit := do
  char '@'
  wrap (!isPlainDecorator e.tree) e.plain

/-- A modifier before a member or parameter. -/
def modifier (present : Bool) (w : String) : Emit := do
  if present then
    word w
    softSpace

def access (a : Option Access) : Emit :=
  match a with
  | some a => modifier true a.text
  | none => pure ()

def parameter (a : Option Access) (override readonly : Bool) (ds : List Piece) (p : Piece) :
    Emit := do
  decoratorList ds
  access a
  modifier override "override"
  modifier readonly "readonly"
  p.plain

def thisParameter (type : Piece) : Emit := do
  word "this"
  type.after (text ": ")

/-- The parameters in parentheses, a `this` parameter first. -/
def parameters (this ps : Piece) : Emit := do
  char '('
  if this.isPresent then
    this.plain
    if !ps.parts.isEmpty then comma
  ps.plain
  char ')'

/-! ## Bodies -/

/-- Whether comments stand on lines of their own. -/
def onLines (cs : List Comment) : Bool := cs.any fun c => c.newlineBefore || c.newlineAfter

/-- A function body with the comments before its closing brace. -/
def body (span : Span) (isEmpty : Bool) (inner : Emit) : Emit := do
  let trailing ← if span.stop > 0 then takeComments (span.stop - 1) else pure []
  braces (isEmpty && !onLines trailing) do
    inner
    if !trailing.isEmpty then
      printComments trailing
      modify fun o => { o with indentAsSpace := false }
  settled

/-! ## Functions -/

def inertMark : String := "/* @__NO_SIDE_EFFECTS__ */"

/-- The mark of a function without side effects. -/
def inert (marked : Bool) : Emit := do
  if marked && (← get).marks then
    text inertMark
    space

/-- A word before another one. -/
def leading (present : Bool) (w : String) : Emit := do
  if present then
    word w
    space

/-- The keyword of a function and the words and marks around it. -/
def functionWords (traits : FunctionTraits) : Emit := do
  leading traits.declare "declare"
  leading traits.async "async"
  word "function"
  if traits.generator then
    char '*'
    softSpace

/-- A function after its keyword. -/
def functionTail (parts : List Piece) (spot : Spot) : Emit :=
  match parts with
  | [name, tps, this, ps, result, b] => do
    if name.isPresent then
      spaceBeforeWord
      name.plain
    tps.plain
    parameters this ps
    result.after (text ": ")
    if b.isPresent then
      softSpace
      b.emit spot.inside
    else semicolon
  | _ => pure ()

/-- A function with a keyword. At the start of a statement an expression stands in parentheses; so
does the function of a method that is printed alone. -/
def function (traits : FunctionTraits) (parts : List Piece) (spot : Spot) : Emit := do
  let isExpression := traits.role != .declaration
  inert (isExpression && traits.pure)
  let o ← get
  wrap (isExpression && (o.statementStart == o.size || o.defaultStart == o.size)) do
    functionWords traits
    functionTail parts spot

/-- The part of a method after its key. -/
def methodTail (parts : List Piece) (withThis : Bool) (spot : Spot) : Emit :=
  match parts with
  | [_, tps, this, ps, result, b] => do
    tps.plain
    parameters (if withThis then this else .absent) ps
    result.after colon
    if b.isPresent then
      softSpace
      b.emit spot.inside
  | _ => pure ()

/-- Marks of a method before its key. -/
def methodMarks (f : Piece) : Emit :=
  match f.form with
  | .function t => do
    modifier t.async "async"
    if t.generator then char '*'
  | _ => pure ()

/-- A method or accessor of an object, without its `this` parameter. -/
def objectMethod (traits : PropertyTraits) (k f : Piece) (spot : Spot) : Emit := do
  match traits.kind with
  | .get => do
    text "get"
    softSpace
  | .set => do
    text "set"
    softSpace
  | .init => pure ()
  methodMarks f
  key k traits.computed
  methodTail f.parts false spot

/-- A property of an object; only a function that is still there makes it a method. -/
def objectMember (traits : PropertyTraits) (k v : Piece) (spot : Spot) : Emit :=
  match v.form with
  | .function _ =>
    if traits.method || traits.kind != .init then objectMethod traits k v spot
    else property traits k v
  | _ => property traits k v

/-- A single name without modifier, type, mark or default needs no parentheses. -/
def isSoleName (ps : Piece) : Bool :=
  match ps.parts with
  | [p] =>
    match p.form with
    | .parameter none false false =>
      let b := p.part 1
      match b.form, (b.part 0).form with
      | .binding false, .bindingName _ => (b.part 1).isAbsent
      | _, _ => false
    | _ => false
  | _ => false

/-- An arrow function after the word `async`. -/
def arrowTail (bare : Bool) (parts : List Piece) (spot : Spot) : Emit :=
  match parts with
  | [tps, ps, result, b] => do
    tps.plain
    if (← get).minify && tps.isAbsent && result.isAbsent && isSoleName ps then ps.plain
    else
      char '('
      ps.plain
      char ')'
    result.after colon
    softSpace
    text "=>"
    softSpace
    if bare then
      modify fun o => { o with arrowStart := o.size }
      b.emit { spot with strength := .comma }
    else b.emit spot.inside
  | _ => pure ()

def arrow (traits : ArrowTraits) (parts : List Piece) (spot : Spot) : Emit := do
  inert traits.pure
  wrap (spot.strength.atLeast .assign || traits.wrapped) do
    modifier traits.async "async"
    arrowTail traits.bare parts spot

/-! ## Classes -/

def method (t : MemberTraits) (ds : List Piece) (k f : Piece) (spot : Spot) : Emit := do
  decoratorList ds
  access t.access
  modifier t.abstract "abstract"
  modifier t.isStatic "static"
  match t.kind with
  | .get => modifier true "get"
  | .set => modifier true "set"
  | _ => pure ()
  methodMarks f
  key k t.computed
  if t.optional then char '?'
  methodTail f.parts true spot
  if (f.part 5).isAbsent then semicolon

/-- The words before the key of a field. -/
def fieldMarks (t : MemberTraits) : Emit := do
  if t.accessor then
    modifier t.abstract "abstract"
    access t.access
    modifier t.isStatic "static"
    modifier t.override "override"
    word "accessor"
    if t.computed then softSpace else space
  else
    modifier t.declare "declare"
    access t.access
    modifier t.abstract "abstract"
    modifier t.isStatic "static"
    modifier t.readonly "readonly"

def field (t : MemberTraits) (ds : List Piece) (k type v : Piece) : Emit := do
  decoratorList ds
  fieldMarks t
  key k t.computed
  if t.optional && !t.accessor then char '?'
  type.after colon
  if v.isPresent then
    equals
    v.item

/-- The members of a class, each with the comments before it. -/
def members (ms : List Piece) (spot : Spot) : Emit := ms.forM fun m => do
  owedSemicolon
  commentsAt m.start
  indent
  m.emit spot.inside
  match m.form with
  | .field _ => endStatement
  | .indexSignature _ _ _ => endStatement
  | _ => softNewline

/-- What a class extends and implements. -/
def classBases (super superArgs : Piece) (contracts : List Piece) : Emit := do
  if super.isPresent then
    text " extends "
    super.emit (.of .update)
    superArgs.plain
  if !contracts.isEmpty then
    text " implements "
    list Piece.plain contracts

/-- The name of a class with its type parameters. -/
def className (name tps : Piece) : Emit := do
  if name.isPresent then
    space
    name.plain
    tps.plain

def classDef (traits : ClassTraits) (parts : List Piece) (spot : Spot) : Emit := do
  let o ← get
  wrap (traits.expression && (o.statementStart == o.size || o.defaultStart == o.size)) do
    match parts with
    | [ds, name, tps, super, superArgs, contracts, ms] => do
      decoratorList ds.parts
      leading traits.declare "declare"
      leading traits.abstract "abstract"
      word "class"
      className name tps
      classBases super superArgs contracts.parts
      softSpace
      braces ms.parts.isEmpty (members ms.parts spot)
      settled
    | _ => pure ()

end Print

end Splice
