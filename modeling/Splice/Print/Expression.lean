import Splice.Print.Piece

/-!
# Printing expressions

Parentheses are put where the strength of the surroundings asks for them; those of the source are
forgotten.
-/
namespace Splice

namespace Print

open Emit

/-! ## Literals -/

/-- Flags of a regular expression in alphabetical order. -/
def orderedFlags (flags : String) : List Char :=
  "dgimsuvy".toList.filter flags.toList.contains

def regexp (pattern flags : String) : Emit := do
  let cs := pattern.toList
  match (← get).text with
  | '/' :: _ => space
  | '<' :: _ => if Quoted.closesScript ('<' :: '/' :: cs) then space
  | _ => pure ()
  char '/'
  chars cs
  char '/'
  chars (orderedFlags flags)
  modify fun o => { o with regexpEnd := o.size }

/-- The pieces of a template with the substitutions between them. -/
def templateFrom : List Quasi → List Piece → Emit
  | [], _ => pure ()
  | q :: qs, [] => do
    chars (Quoted.breakScript q.raw.toList)
    templateFrom qs []
  | q :: qs, e :: es => do
    chars (Quoted.breakScript q.raw.toList)
    text "$\x7b"
    e.plain
    char '}'
    templateFrom qs es

def template (quasis : List Quasi) (substitutions : List Piece) : Emit := do
  char '\x60'
  templateFrom quasis substitutions
  char '\x60'

/-! ## Names and members -/

/-- The object of a member access. -/
def object (p : Piece) (spot : Spot) : Emit :=
  p.emit { strength := .update, noCall := spot.noCall }

def dot (isOptional : Bool) : Emit := do
  let o ← get
  if isOptional then char '?'
  else if o.numberEnd == o.size then space
  char '.'

def member (name : String) (isOptional : Bool) (obj : Piece) (spot : Spot) : Emit := do
  object obj spot
  dot isOptional
  text name

def privateMember (name : String) (isOptional : Bool) (obj : Piece) (spot : Spot) : Emit := do
  object obj spot
  if isOptional then char '?'
  text ".#"
  text name

def index (isOptional : Bool) (obj idx : Piece) (spot : Spot) : Emit := do
  let isLet := match obj.tree.innermost.form with
    | .identifier "let" => true
    | _ => false
  wrap isLet (object obj spot)
  if isOptional then text "?."
  char '['
  idx.plain
  char ']'

/-- A computed key in brackets, any other key as it is. -/
def key (p : Piece) (computed : Bool) : Emit := do
  let inner : Emit := match p.form with
    | .string v s => quoted v s false
    | _ => p.item
  if computed then
    char '['
    inner
    char ']'
  else inner

/-! ## Calls -/

/-- Arguments one to a line, with the comments before them. -/
def argumentLines : (first : Bool) → List Piece → Emit
  | _, [] => pure ()
  | first, a :: rest => do
    if !first then char ','
    if !(← argumentComments a.start) then softNewline
    indent
    a.item
    argumentLines false rest

/-- Arguments in parentheses; with comments among them each has a line of its own. `close` is the
position of the closing parenthesis. -/
def arguments (close : Nat) (args : List Piece) : Emit := do
  char '('
  let atClose ← hasComment close
  let cs := (← get).comments
  if atClose || args.any fun a => cs.any fun c => c.leads == some a.start then
    deeper
    argumentLines true args
    if !(← argumentComments close) then softNewline
    shallower
    indent
  else list Piece.item args
  char ')'

def pureMark : Emit := text "/* @__PURE__ */ "

/-- What begins with a mark begins after it. -/
def moveStart (isDefault isStatement : Bool) : Emit := do
  if isDefault then modify fun o => { o with defaultStart := o.size }
  else if isStatement then modify fun o => { o with statementStart := o.size }

def call (isOptional pure : Bool) (span : Span) (callee typeArgs : Piece) (args : List Piece)
    (spot : Spot) : Emit := do
  let o ← get
  let pure := pure && o.marks
  let isStatement := o.statementStart == o.size
  let isDefault := o.defaultStart == o.size
  let needed := spot.strength.atLeast .new || spot.noCall || (pure && spot.strength.atLeast .update)
  wrap needed do
    if pure then pureMark
    moveStart isDefault isStatement
    callee.emit (.of .update)
    if isOptional then text "?."
    typeArgs.plain
    arguments (span.stop - 1) args

def construct (pure : Bool) (span : Span) (callee : Piece) (args : List Piece) (spot : Spot) :
    Emit := do
  let pure := pure && (← get).marks
  let tight := spot.strength.atLeast .update
  wrap (spot.strength.atLeast .member || (pure && tight)) do
    if pure then pureMark
    word "new"
    softSpace
    callee.emit { strength := .new, noCall := true }
    if !(← get).minify || !args.isEmpty || tight then arguments (span.stop - 1) args

/-- The first argument of an import, on a line of its own where `lines` says so. -/
def importSource (lines : Bool) (source : Piece) : Emit := do
  if lines then deeper
  if ← argumentComments source.start then indent
  else if lines then
    softNewline
    indent
  source.item

def importOptions (lines : Bool) (options : Piece) : Emit := do
  if options.isPresent then
    char ','
    if lines then
      softNewline
      indent
    else softSpace
    options.item

/-- An import at run time. With comments among the arguments each has a line of its own, but the
closing parenthesis is not indented. -/
def importCall (phase : Option String) (span : Span) (source options : Piece) (spot : Spot) :
    Emit :=
  wrap (spot.strength.atLeast .new || spot.noCall) do
    word "import"
    text (phase.getD "")
    char '('
    let close := span.stop - 1
    let atClose ← hasComment close
    let atSource ← hasComment source.start
    let atOptions ← hasComment options.start
    let lines := atClose || atSource || (options.isPresent && atOptions)
    importSource lines source
    importOptions lines options
    if lines then
      if !(← argumentComments close) then softNewline
      shallower
    char ')'

/-! ## Operators -/

def unary (op : UnaryOp) (operand : Piece) (spot : Spot) : Emit :=
  wrap (spot.strength.atLeast .unary) do
    if op.isWord then
      word op.text
      softSpace
    else
      spaceBeforeOperator (.unary op)
      text op.text
      afterOperator (.unary op)
    operand.emit { spot with strength := .power }

def update (op : UpdateOp) (before : Bool) (target : Piece) (spot : Spot) : Emit := do
  let own : Strength := if before then .unary else .update
  wrap (spot.strength.atLeast own) do
    spaceBeforeOperator (.update op)
    if before then
      text op.text
      afterOperator (.update op)
      target.emit { spot with strength := .unary }
    else
      target.emit { spot with strength := .update }
      text op.text
      afterOperator (.update op)

/-- The strengths that an operator gives to its operands. -/
def operandStrengths (own below : Strength) : Strength × Strength :=
  if own.groupsRight then (own, below) else (below, own)

/-- Prints two operands with an operator between them. -/
def infixed (needed : Bool) (left right : Piece) (strengths : Strength × Strength) (mark : Emit)
    (spot : Spot) : Emit := do
  let noIn := spot.noIn && !needed
  wrap needed do
    left.emit { spot with strength := strengths.1, noIn }
    softSpace
    mark
    softSpace
    right.emit { strength := strengths.2, noIn }

def binary (op : BinaryOp) (left right : Piece) (spot : Spot) : Emit := do
  let needed := spot.strength.atLeast op.strength || (op == .isIn && spot.noIn)
  let (l, r) := operandStrengths op.strength op.below
  let bare := match left.tree.withoutParens.form with
    | .unary _ => true
    | _ => false
  let l := if op == .pow && bare then .call else l
  infixed needed left right (l, r) (do
    if op.isWord then word op.text
    else
      spaceBeforeOperator (.binary op)
      text op.text
      afterOperator (.binary op)) spot

/-- `??` keeps parentheses around the other logical operators. -/
def mixes (p : Piece) : Bool :=
  match p.tree.withoutParens.form with
  | .logical op => op != .coalesce
  | _ => false

def logical (op : LogicalOp) (left right : Piece) (spot : Spot) : Emit := do
  let needed := spot.strength.atLeast op.strength
  let side (p : Piece) (s : Strength) : Strength :=
    if op == .coalesce && mixes p then .unary else s
  infixed needed left right (side left op.below, side right op.below) (text op.text) spot

def privateIn (name right : Piece) (spot : Spot) : Emit :=
  wrap (spot.strength.atLeast .compare) do
    name.plain
    text " in "
    right.emit { strength := .equality, noIn := true }

def conditional (test yes no : Piece) (spot : Spot) : Emit := do
  let needed := spot.strength.atLeast .conditional
  let noIn := spot.noIn && !needed
  wrap needed do
    test.emit { strength := .conditional, noIn }
    softSpace
    char '?'
    softSpace
    yes.emit (.of .yield)
    softSpace
    char ':'
    softSpace
    no.emit { strength := .yield, noIn }

def assign (op : AssignOp) (target v : Piece) (spot : Spot) : Emit := do
  let o ← get
  let isPattern := match target.form with
    | .objectTarget => true
    | _ => false
  let needed := (isPattern && (o.statementStart == o.size || o.arrowStart == o.size)) ||
    spot.strength.atLeast .assign
  wrap needed do
    target.item
    softSpace
    text op.text
    softSpace
    v.emit { spot with strength := .comma }

def sequence (items : List Piece) (spot : Spot) : Emit :=
  wrap (spot.strength.atLeast .comma) <|
    list (fun p => p.emit { spot with strength := .lowest, noCall := false }) items

def awaitExpression (operand : Piece) (spot : Spot) : Emit :=
  wrap (spot.strength.atLeast .unary) do
    word "await"
    softSpace
    operand.emit { spot with strength := .power }

def yieldExpression (delegate : Bool) (operand : Piece) (spot : Spot) : Emit :=
  wrap (spot.strength.atLeast .assign) do
    word "yield"
    if delegate then char '*'
    if operand.isPresent then
      softSpace
      operand.emit (.of .yield)

/-! ## Literals with parts -/

def arrayItems : (multi first : Bool) → List Piece → Emit
  | _, _, [] => pure ()
  | multi, first, p :: rest => do
    if !first then char ','
    if multi then
      softNewline
      indent
    else if !first then softSpace
    p.item
    match rest, p.form with
    | [], .hole => char ','
    | _, _ => pure ()
    arrayItems multi false rest

/-- An array; with more than two elements each has a line of its own. -/
def array (items : List Piece) : Emit := do
  let multi := items.length > 2
  char '['
  if multi then deeper
  arrayItems multi true items
  if multi then
    softNewline
    shallower
    indent
  char ']'

def objectItems (spot : Spot) : (multi first : Bool) → List Piece → Emit
  | _, _, [] => pure ()
  | multi, first, p :: rest => do
    if !first then char ','
    if multi then
      softNewline
      indent
    else softSpace
    p.emit spot.inside
    objectItems spot multi false rest

/-- The braces of an object; with more than one property each has a line of its own. -/
def objectBraces (items : List Piece) (spot : Spot) : Emit := do
  let multi := items.length > 1
  char '{'
  if multi then deeper
  objectItems spot multi true items
  if multi then
    softNewline
    shallower
    indent
  else if !items.isEmpty then softSpace
  char '}'

def objectLiteral (start : Nat) (items : List Piece) (spot : Spot) : Emit := do
  let o ← get
  let commented ← hasComment start
  wrap (commented || o.statementStart == o.size || o.arrowStart == o.size) do
    if commented then
      commentsAt start
      indent
    objectBraces items spot

def spread (p : Piece) : Emit := do
  text "..."
  p.item

/-- A property may drop its key when the value is the name itself. -/
def isShorthand (traits : PropertyTraits) (k v : Piece) : Bool :=
  match k.form with
  | .name w =>
    if w == "__proto__" then traits.shorthand
    else match v.tree.withoutParens.form with
      | .identifier x => w == x
      | _ => false
  | _ => false

/-- Negative and infinite numbers can only be computed keys. -/
def needsBrackets (k : Piece) : Bool :=
  match k.form with
  | .number d _ => d.isNegative || d.isInfinite
  | _ => false

/-- A property that is not a method. -/
def property (traits : PropertyTraits) (k v : Piece) : Emit := do
  if !isShorthand traits k v then
    key k (traits.computed || needsBrackets k)
    colon
  v.item

/-! ## Typed expressions -/

def asType (e t : Piece) (spot : Spot) : Emit :=
  wrap (spot.strength.atLeast .shift) do
    e.emit { spot with strength := .power }
    text " as "
    t.plain

def satisfies (e t : Piece) (spot : Spot) : Emit := do
  text "(("
  e.emit (.of spot.strength)
  text ") satisfies "
  t.plain
  char ')'

/-- A function type keeps apart from the bracket before it. -/
def assertion (t e : Piece) (spot : Spot) : Emit := do
  text "(<"
  match t.form with
  | .functionType => space
  | _ => pure ()
  t.plain
  char '>'
  e.emit { spot with strength := .member }
  char ')'

/-- Parentheses of the source stay. -/
def nonNull (e : Piece) (spot : Spot) : Emit := do
  let written := match e.form with
    | .parens => true
    | _ => false
  wrap written (e.emit spot)
  char '!'
  if (← get).minify then space

def instantiation (e args : Piece) (spot : Spot) : Emit := do
  e.emit spot
  args.plain
  if (← get).minify then space

end Print

end Splice
