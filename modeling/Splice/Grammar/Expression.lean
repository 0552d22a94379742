import Splice.Grammar.Class
import Splice.Grammar.Object

/-!
# Expressions

From single operands to sequences: literals and parentheses, member accesses and calls, unary and
binary operators by their binding strength, assignments and conditionals.
-/
namespace Splice

namespace Read

/-! ## Operators -/

/-- An operator between two operands. -/
inductive Operator where
  | binary (op : BinaryOp)
  | logical (op : LogicalOp)
  | asType
  | satisfies
deriving DecidableEq

def Operator.isBinary : Operator → Bool
  | binary _ => true
  | _ => false

def operatorOf : TokenKind → Option Operator
  | .punct p =>
    match p with
    | .eqEq => some (.binary .eq) | .bangEq => some (.binary .ne)
    | .eqEqEq => some (.binary .strictEq) | .bangEqEq => some (.binary .strictNe)
    | .lt => some (.binary .lt) | .ltEq => some (.binary .le)
    | .gt => some (.binary .gt) | .gtEq => some (.binary .ge)
    | .shl => some (.binary .shiftLeft) | .shr => some (.binary .shiftRight)
    | .ushr => some (.binary .shiftRightZero)
    | .plus => some (.binary .add) | .minus => some (.binary .sub)
    | .star => some (.binary .mul) | .slash => some (.binary .div)
    | .percent => some (.binary .rem) | .starStar => some (.binary .pow)
    | .pipe => some (.binary .bitOr) | .caret => some (.binary .bitXor)
    | .amp => some (.binary .bitAnd)
    | .pipePipe => some (.logical .or) | .ampAmp => some (.logical .and)
    | .coalesce => some (.logical .coalesce)
    | _ => none
  | .word "in" => some (.binary .isIn)
  | .word "instanceof" => some (.binary .instanceof)
  | .word "as" => some .asType
  | .word "satisfies" => some .satisfies
  | _ => none

def Operator.strength : Operator → Strength
  | .binary op => op.strength
  | .logical op => op.strength
  | .asType => .compare
  | .satisfies => .compare

/-- A mark or word that is an operator between two operands, in typed and plain sources alike. -/
def isBinaryOperator (k : TokenKind) : Bool :=
  match operatorOf k with
  | some (.binary _) => true
  | some (.logical _) => true
  | _ => false

def assignOf : TokenKind → Option AssignOp
  | .punct p =>
    match p with
    | .eq => some .plain
    | .plusEq => some (.binary .add) | .minusEq => some (.binary .sub)
    | .starEq => some (.binary .mul) | .slashEq => some (.binary .div)
    | .percentEq => some (.binary .rem) | .starStarEq => some (.binary .pow)
    | .shlEq => some (.binary .shiftLeft) | .shrEq => some (.binary .shiftRight)
    | .ushrEq => some (.binary .shiftRightZero)
    | .pipeEq => some (.binary .bitOr) | .caretEq => some (.binary .bitXor)
    | .ampEq => some (.binary .bitAnd)
    | .pipePipeEq => some (.logical .or) | .ampAmpEq => some (.logical .and)
    | .coalesceEq => some (.logical .coalesce)
    | _ => none
  | _ => none

def unaryOf : TokenKind → Option UnaryOp
  | .punct .plus => some .plus
  | .punct .minus => some .minus
  | .punct .bang => some .not
  | .punct .tilde => some .complement
  | .word "typeof" => some .typeof
  | .word "void" => some .void
  | .word "delete" => some .delete
  | _ => none

def updateOf : TokenKind → Option UpdateOp
  | .punct .plusPlus => some .increment
  | .punct .minusMinus => some .decrement
  | _ => none

/-- What may begin an expression. -/
def startsExpression : TokenKind → Bool
  | .word w =>
    !isReservedWord w ||
      ["this", "super", "null", "true", "false", "function", "class", "new", "import", "delete",
       "typeof", "void"].contains w
  | .privateName _ | .number _ _ _ | .bigint _ _ | .string _ _ | .template .whole _
  | .template .head _ => true
  | .punct p =>
    match p with
    | .lparen | .lbracket | .lbrace | .slash | .slashEq | .plus | .minus | .tilde | .bang
    | .plusPlus | .minusMinus | .lt | .atSign => true
    | _ => false
  | _ => false

variable {input : Source}

/-- The state in which a closing angle bracket is joined with the marks right after it. -/
def joined (s : ReadState input) : ReadState input :=
  if mark : s.token.kind = .punct .gt then
    let join := joinAngle s.rest
    { s with
      token := { s.token with kind := .punct join.1, stop := s.token.start + join.2.2 }
      rest := join.2.1
      pos := s.token.start + join.2.2
      placed := s.placed.respell mark (joinAngle_spelled s.rest).1 (joinAngle_spelled s.rest).2 }
  else s

def joinMark : Read Unit := modify joined

variable (go : Descend)

/-- Everything is allowed again between brackets. -/
def enclosed {α : Type} (r : Read α) : Read α :=
  within (fun c => { c with allowIn := true, inDecorator := false }) r

/-! ## Literals -/

/-- What stands after the slash, where a division mark is the current token. -/
def afterSlash (s : ReadState input) : List Char :=
  if s.token.kind == .punct .slashEq then '=' :: s.rest else s.rest

theorem leaves_afterSlash {s : ReadState input}
    (slash : s.token.kind = .punct .slash ∨ s.token.kind = .punct .slashEq) :
    Leaves s.source s.token.start ('/' :: afterSlash s) := by
  unfold afterSlash
  rcases slash with mark | mark
  · rw [mark]
    exact s.placed.mark _ mark
  · rw [mark]
    exact s.placed.mark _ mark

/-- Reads a regular expression; a division mark is the current token. -/
def regexp : Read Node := do
  let s ← get
  if slash : s.token.kind = .punct .slash ∨ s.token.kind = .punct .slashEq then
    let l := readRegexp (afterSlash s)
    match l.kind with
    | .regexp p f => do
      set (accept s (.ofLexeme l s.token.start s.trivia s.token.fresh false false [])
        (placed_ofLexeme (leaves_afterSlash slash) (readRegexp_readOff ..) ..))
      if (← get).tokenProblems.isEmpty then
        if f.contains 'u' && f.contains 'v' then note .clashingFlags
        bump
        value (.regexp p f) s.token.start
      else throw .unexpectedToken
    | _ => do
      set { s with tokenProblems := l.problems.reverse ++ s.tokenProblems }
      throw .unexpectedToken
  else unexpected

/-- A literal that is a single token. -/
def literal (form : Form) : Read Node := do
  let s ← start
  bump
  value form s

def templateLiteral : Read Node := do
  let s ← start
  let (qs, es) ← templatePieces (enclosed (go .expression)) true
  value (.template (qs.map Prod.fst)) s es (qs.map Prod.snd)

/-! ## Parentheses -/

/-- Marks a function that stands alone between parentheses. -/
def wrapped (n : Node) : Node :=
  match n.form with
  | .arrow t => n.withForm (.arrow { t with wrapped := true })
  | _ => n

def parenthesized : Read Node := do
  let s ← start
  expect .lparen
  let inner ← start
  let (es, comma) ← enclosed (separated .rparen .comma (go (.assignment true)))
  if comma then throw (.expected ")" ",")
  match es with
  | [] => do
    expect .rparen
    throw .emptyParens
  | [e] => do
    expect .rparen
    value .parens s [wrapped e]
  | _ => do
    let seq ← value .sequence inner es
    expect .rparen
    value .parens s [seq]

/-! ## Operands -/

/-- The arguments of a call, in parentheses. -/
def arguments : Read Node := do
  let s ← start
  expect .lparen
  let (es, _) ← enclosed (separated .rparen .comma (spreadable go))
  expect .rparen
  part .group s es

/-- An import of a module at run time, from its parenthesis on. -/
def importCall (s : Nat) (phase : Option String) : Read Node := do
  expect .lparen
  if ← eat .rparen then throw .importArity
  let (source, options) ← within (fun c => { c with allowIn := true }) do
    let source ← go (.assignment true)
    let options ← if (← eat .comma) && !(← isAt .rparen) then go (.assignment true)
      else pure .absent
    let _ ← eat .comma
    return (source, options)
  if !(← eat .rparen) then throw .importArguments
  value (.importCall phase) s [source, options]

/-- An expression that begins with `import`. -/
def importExpression : Read Node := do
  let s ← start
  bump
  let word ← spanFrom s
  match ← kind with
  | .punct .dot => do
    bump
    let p ← start
    match ← kind with
    | .word "meta" => do
      bump
      value (.metaProperty "import" "meta") s [] [word, ← spanFrom p]
    | .word "source" => do
      bump
      importCall go s (some "source")
    | .word "defer" => do
      bump
      importCall go s (some "defer")
    | _ => throw .importMeta
  | .punct .lparen => importCall go s none
  | _ => unexpected

def superExpression : Read Node := do
  let s ← start
  bump
  match ← kind with
  | .punct .dot | .punct .lbracket | .punct .lparen => pure ()
  | _ => note .superAlone
  value .superValue s

/-- A construction: the operand of `new` has no calls of its own. -/
def newExpression : Read Node := do
  let s ← start
  bump
  let word ← spanFrom s
  if ← eat .dot then
    let p ← start
    if ← atWord "target" then
      bump
      value (.metaProperty "new" "target") s [] [word, ← spanFrom p]
    else throw .newTarget
  else
    let callee ← go .newTarget
    let (callee, targs) := match callee.form, callee.children with
      | .instantiation, [e, args] => (e, args)
      | _, _ => (callee, .absent)
    let args ← if ← isAt .lparen then arguments go else pure (.group [])
    let isOptional := match callee.form with
      | .chain => true
      | _ => false
    match callee.form with
    | .importCall _ => note .newDynamicImport
    | _ => pure ()
    if isOptional then note .newOptionalChain
    value (.new false) s [callee, targs, args]

/-- An operand without anything after it. -/
def primary : Read Node := do
  match ← kind with
  | .word w =>
    match w with
    | "this" => literal .thisValue
    | "null" => literal .nullValue
    | "true" => literal (.boolean true)
    | "false" => literal (.boolean false)
    | "function" => functionExpression go
    | "class" => classExpression go
    | "new" => newExpression go
    | "super" => superExpression
    | "import" => importExpression go
    | "async" => if ← isFunctionKeyword then functionExpression go else identifier
    | _ => identifier
  | .number v _ w => literal (← numberForm v w)
  | .bigint d _ => literal (.bigint d)
  | .string v h => literal (.string v h)
  | .template .whole _ | .template .head _ => templateLiteral go
  | .punct p =>
    match p with
    | .lparen => parenthesized go
    | .lbracket => arrayLiteral go
    | .lbrace => objectLiteral go
    | .slash | .slashEq => regexp
    | .atSign => classExpression go
    | .lt => if (← language).elements then go (.element false) else unexpected
    | _ => unexpected
  | _ => unexpected

/-! ## Members and calls -/

/-- Type arguments in an expression, if what looks like them is followed by something that fits. -/
def expressionTypeArguments : Read (Option Node) := attemptSome do
  splitAngle
  let s ← start
  expect .lt
  let (ts, _) ← separated .gt .comma (go .type)
  let st ← get
  match st.token.kind, st.rest with
  | .punct .gt, '=' :: _ => return none
  | _, _ => pure ()
  expect .gt
  let args ← part .typeArguments s ts
  let t ← token
  match t.kind with
  | .punct .lparen | .template .whole _ | .template .head _ => return some args
  | .punct .lt | .punct .gt | .punct .plus | .punct .minus => return none
  | k => return if t.fresh || isBinaryOperator k || !startsExpression k then some args else none

/-- A template after its tag. -/
def taggedTemplate (s : Nat) (tag : Node) (inChain : Bool) : Read Node := do
  let (tag, targs) := match tag.form, tag.children with
    | .instantiation, [e, args] => (e, args)
    | _, _ => (tag, .absent)
  let ((qs, es), whole) ← located (templatePieces (enclosed (go .expression)) false)
  if inChain then note .optionalTemplate
  value (.tagged (qs.map Prod.fst)) s [tag, targs, .group es] (whole :: qs.map Prod.snd)

/-- The name after a dot. -/
def memberName (s : Nat) (object : Node) (isOptional : Bool) : Read Node := do
  let t ← token
  match t.kind with
  | .privateName w => do
    bump
    value (.privateMember w isOptional) s [object] [⟨t.start, t.stop⟩]
  | _ => do
    let (w, name) ← anyWord
    value (.member w isOptional) s [object] [name]

/-- The index after an opening bracket. -/
def memberIndex (s : Nat) (object : Node) (isOptional : Bool) : Read Node := do
  expect .lbracket
  let i ← enclosed (go .expression)
  expect .rbracket
  value (.index isOptional) s [object, i]

/-- One access after an operand; nothing if none follows. -/
def memberStep (s : Nat) (n : Node) (inChain : Bool) : Read (Option (Node × Bool)) := do
  let t ← token
  let inDecorator := (← context).inDecorator
  match t.kind with
  | .punct .dot => do
    bump
    return some (← memberName s n false, inChain)
  | .punct .questionDot => do
    match (← peek).kind with
    | .punct .lbracket => do
      if inDecorator then return none
      bump
      return some (← memberIndex go s n true, true)
    | .privateName _ | .word _ => do
      bump
      return some (← memberName s n true, true)
    | _ => return none
  | .punct .lbracket =>
    if inDecorator then return none else return some (← memberIndex go s n false, inChain)
  | .punct .bang => do
    if t.fresh || !(← isTyped) then return none
    bump
    return some (← value .nonNull s [n], inChain)
  | .template .whole _ | .template .head _ => return some (← taggedTemplate go s n inChain, inChain)
  | .punct .lt | .punct .shl | .punct .shlEq => do
    if !(← isTyped) then return none
    match ← expressionTypeArguments go with
    | some args => return some (← value .instantiation s [n, args], inChain)
    | none => return none
  | _ => return none

/-- One round of reading accesses; a node comes with whether one of its accesses is optional. -/
def memberRound (s : Nat) (n : Node × Bool) : Read (Step (Node × Bool)) := do
  match ← memberStep go s n.1 n.2 with
  | some r => return .more r
  | none => return .done n

/-- All accesses after an operand, and whether one of them is optional. -/
def memberRest (s : Nat) (n : Node) (inChain : Bool) : Read (Node × Bool) :=
  iterate (n, inChain) (memberRound go s)

/-- The call after an operand and its accesses, if there is one. -/
def callStep (s : Nat) (n : Node × Bool) : Read (Step (Node × Bool)) := do
  let (n, inChain) := n
  let isOptional ← eat .questionDot
  let targs ← if isOptional && (← isTyped) && ((← isAt .lt) || (← isAt .shl)) then
      expressionTypeArguments go
    else pure none
  if targs.isSome || (← isAt .lparen) then
    let (callee, targs) := match n.form, n.children with
      | .instantiation, [e, args] => if isOptional then (n, targs) else (e, some args)
      | _, _ => (n, targs)
    let args ← arguments go
    let c ← value (.call isOptional false) s [callee, targs.getD .absent, args]
    return .more (c, inChain || isOptional)
  else if isOptional then unexpected
  else return .done (n, inChain)

/-- One round of reading accesses and a call. -/
def callRound (s : Nat) (n : Node × Bool) : Read (Step (Node × Bool)) := do
  callStep go s (← memberRest go s n.1 n.2)

/-- Calls and accesses after an operand. -/
def callRest (s : Nat) (n : Node) (inChain : Bool) : Read (Node × Bool) :=
  iterate (n, inChain) (callRound go s)

/-- Encloses the links of an optional chain. -/
def asChain (n : Node) : Node :=
  let wrap (n : Node) : Node := .mk .chain .value n.span [n.withPlace .part]
  let chained (n : Node) : Node :=
    match n.form with
    | .member _ _ | .index _ | .privateMember _ _ | .call _ _ | .nonNull => wrap n
    | _ => n
  match n.form, n.children with
  | .instantiation, [e, args] => n.withChildren [chained e, args]
  | _, _ => chained n

def leftHandSide : Read Node := do
  let s ← start
  let first ← primary go
  let (n, inChain) ← callRest go s first false
  return if inChain then asChain n else n

/-- The operand of `new`; an optional access in it is marked as a chain. -/
def newTarget : Read Node := do
  let s ← start
  let first ← primary go
  let (n, inChain) ← memberRest go s first false
  return if inChain then .mk .chain .value n.span [n.withPlace .part] else n

/-! ## Unary operators -/

/-- `await` begins an operand here. -/
def isAwait : Read Bool := do
  if !(← atWord "await") then return false
  if (← context).inAsync then return true
  let next ← peek
  if next.fresh then return false
  match next.kind with
  | .word w => return w != "in" && w != "instanceof" && w != "of" && w != "as" && w != "satisfies"
  | .number _ _ _ | .bigint _ _ | .string _ _ => return true
  | _ => return false

def awaitExpression : Read Node := do
  let s ← start
  if !(← context).inAsync then note .awaitOutside
  bump
  let e ← within (fun c => { c with inAsync := true }) (go .unary)
  value .await s [e]

/-- A type in angle brackets before an operand. -/
def assertion : Read Node := do
  let s ← start
  expect .lt
  let t ← go .type
  expect .gt
  let e ← go .unary
  value .assertion s [t, e]

/-- An operand with `++` or `--` before or after it. -/
def updateExpression : Read Node := do
  let s ← start
  match updateOf (← kind) with
  | some op => do
    bump
    let e ← go .unary
    let t ← simpleTarget e
    value (.update op true) s [t]
  | none => do
    if (← isAt .lt) && (← language).elements then go (.element false)
    else
      let e ← leftHandSide go
      match updateOf (← kind) with
      | some op => do
        if ← isFresh then return e
        bump
        let t ← simpleTarget e
        value (.update op false) s [t]
      | none => return e

def unaryExpression : Read Node := do
  let s ← start
  let k ← kind
  match unaryOf k with
  | some op => do
    bump
    let e ← go .unary
    value (.unary op) s [e]
  | none => do
    if k == .punct .lt && !(← language).elements && (← isTyped) then assertion go
    else if ← isAwait then awaitExpression go
    else updateExpression go

/-! ## Binary operators -/

/-- A test for a private name. -/
def privateIn (s : Nat) (name : String) : Read Node := do
  let t ← token
  bump
  expectWord "in"
  let right ← go (.binary .compare)
  match right.form with
  | .privateIn => throw .unexpectedToken
  | _ => value .privateIn s [.mk (.privateName name) .part ⟨⟨t.start, t.stop⟩, []⟩ [], right]

/-- A logical expression other than one of `??`. -/
def mixes (n : Node) : Bool :=
  match n.form with
  | .logical o => o != .coalesce
  | _ => false

/-- `??` may not be mixed with the other logical operators without parentheses. -/
def checkMixed (op : LogicalOp) (left right : Node) : Read Unit := do
  if op == .coalesce && (mixes left || mixes right) then note .coalesceMixed

/-- The left operand of a power may not be a bare unary expression. -/
def checkPower (left : Node) : Read Unit := do
  match left.form with
  | .unary _ | .await => note .unexpectedPower
  | _ => pure ()

/-- An operator of the given strength is read where everything has to bind tighter than `above`. -/
def bindsAbove (strength above : Strength) : Bool :=
  if strength.groupsRight then strength.rank ≥ above.rank else strength.rank > above.rank

/-- One operator and the operand after it. -/
def binaryRound (s : Nat) (above : Strength) (left : Node) : Read (Step Node) := do
  joinMark
  match operatorOf (← kind) with
  | none => return .done left
  | some op => do
    let strength := op.strength
    if !bindsAbove strength above then return .done left
    match op with
    | .asType | .satisfies => do
      if ← isFresh then return .done left
      bump
      let t ← go .type
      let isAs := op == .asType
      if !(← isTyped) then note (if isAs then .assertionUntyped else .satisfiesUntyped)
      return .more (← value (if isAs then .asType else .satisfies) s [left, t])
    | .binary op => do
      if op == .isIn && !(← context).allowIn then return .done left
      bump
      let right ← go (.binary strength)
      if op == .pow then checkPower left
      return .more (← value (.binary op) s [left, right])
    | .logical op => do
      bump
      let right ← go (.binary strength)
      checkMixed op left right
      return .more (← value (.logical op) s [left, right])

/-- Operators and operands after the first operand. -/
def binaryRest (s : Nat) (first : Node) (above : Strength) : Read Node :=
  iterate first (binaryRound go s above)

def binaryExpression (above : Strength) : Read Node := do
  let s ← start
  let first ← match ← kind with
    | .privateName n => do
      if (← context).allowIn then privateIn go s n else go .unary
    | _ => go .unary
  binaryRest go s first above

/-! ## Marks for calls and functions -/

mutual

/-- Marks the call that an expression begins with as free of side effects. -/
def markPure : Node → Node
  | .mk form place spans cs =>
    match form with
    | .call o _ => .mk (.call o true) place spans cs
    | .new _ => .mk (.new true) place spans cs
    | .parens | .binary _ | .logical _ | .conditional => .mk form place spans (markPureFirst cs)
    | .chain =>
      match cs with
      | .mk (.call o _) p s inner :: rest => .mk form place spans (.mk (.call o true) p s inner :: rest)
      | _ => .mk form place spans cs
    | _ => .mk form place spans cs

def markPureFirst : List Node → List Node
  | [] => []
  | c :: cs => markPure c :: cs

end

mutual

/-- Marks a function as free of side effects. -/
def markInert : Node → Node
  | .mk form place spans cs =>
    match form with
    | .function t => .mk (.function { t with pure := true }) place spans cs
    | .arrow t => .mk (.arrow { t with pure := true }) place spans cs
    | .parens => .mk form place spans (markInertFirst cs)
    | _ => .mk form place spans cs

def markInertFirst : List Node → List Node
  | [] => []
  | c :: cs => markInert c :: cs

end

/-! ## Assignments -/

/-- `yield` begins an expression here. -/
def isYield : Read Bool := do
  if !(← atWord "yield") then return false
  if (← context).inGenerator then return true
  let next ← peek
  if next.fresh then return false
  match next.kind with
  | .word w => return w != "in" && w != "instanceof"
  | .number _ _ _ | .bigint _ _ | .string _ _ => return true
  | _ => return false

def yieldExpression : Read Node := do
  let s ← start
  bump
  if !(← context).inGenerator then note .yieldOutside
  if ← isFresh then value (.yield false) s [.absent]
  else
    let delegate ← eat .star
    let ends := match ← kind with
      | .eof | .punct .semicolon | .punct .rbracket | .punct .rparen | .punct .rbrace
      | .punct .colon | .punct .comma => true
      | _ => false
    let e ← if ends && !delegate then pure .absent
      else within (fun c => { c with inGenerator := true }) (go (.assignment true))
    value (.yield delegate) s [e]

/-- The rest of a conditional, if the question mark is there. -/
def conditionalRest (s : Nat) (test : Node) (resultType : Bool) : Read Node := do
  if ← eat .question then
    let yes ← beforeMark <|
      within (fun c => { c with allowIn := true }) (go (.assignment false))
    expect .colon
    let no ← go (.assignment resultType)
    value .conditional s [test, yes, no]
  else return test

/-- Marks the function that begins with the token, if the token is marked so. -/
def inertFrom (t : Token) (n : Node) : Node := if t.inert then markInert n else n

/-- What follows the operand that an assignment or a conditional begins with; `t` is its first
token. -/
def assignmentRest (t : Token) (left : Node) (resultType : Bool) : Read Node := do
  let k ← kind
  match left.form, k with
  | .identifier w, .punct .arrow => do
    return inertFrom t (← soleArrow go t.start false w left.span resultType)
  | _, _ =>
    match assignOf k with
    | some op => do
      let target ← cover .whole left
      bump
      let v ← go (.assignment resultType)
      value (.assign op) t.start [target, v]
    | none => do
      let e ← conditionalRest go t.start left resultType
      return inertFrom t (if t.pure then markPure e else e)

def assignment (resultType : Bool) : Read Node := do
  let t ← token
  if ← isYield then yieldExpression go
  else match ← parenthesizedArrow go resultType with
  | some f => return inertFrom t f
  | none =>
    match ← asyncSoleArrow go resultType with
    | some f => return inertFrom t f
    | none => do
      let left ← go (.binary .comma)
      assignmentRest go t left resultType

/-- Expressions separated by commas. -/
def expression : Read Node := do
  let s ← start
  let first ← go (.assignment true)
  if ← isAt .comma then
    let es ← iterate [first] fun acc => do
      if ← eat .comma then return .more ((← go (.assignment true)) :: acc) else return .done acc
    value .sequence s es.reverse
  else return first

end Read

end Splice
