import Splice.Grammar.Binding

/-!
# Types

The grammar of types: functions, conditionals, unions, operators, arrays, tuples, literals, mapped
types, and the members of interfaces.
-/
namespace Splice

namespace Read

variable {input : Source} (go : Descend)

/-! ## Names -/

/-- A dotted name of a type. -/
def typeName : Read Node := do
  let s ← start
  let (w, span) ← anyWord
  iterate (.mk (.typeName w) .part span [] : Node) fun left => do
    if ← eat .dot then
      let (right, name) ← anyWord
      return .more (← part (.qualifiedName right) s [left] [name])
    else return .done left

/-- Type arguments on the same line. -/
def sameLineTypeArguments : Read Node := do
  if ← isFresh then return .absent else typeArguments go

def typeReference : Read Node := do
  let s ← start
  let n ← typeName
  let args ← sameLineTypeArguments go
  part .typeReference s [n, args]

/-! ## Functions -/

/-- Skips the beginning of a parameter, if there is one. -/
def skipParameter : Read Bool := do
  let _ ← modifiers
  match ← kind with
  | .word "this" => do bump; return true
  | .punct .lbrace | .punct .lbracket => do
    let before := (← get).problems.length
    let r ← attempt (go .pattern)
    return r.isSome && (← get).problems.length == before
  | k => if isName k then do bumpName; return true else return false

/-- After an opening parenthesis, a parameter list must follow. -/
def beginsFunctionType : Read Bool := lookahead false do
  bump
  match ← kind with
  | .punct .rparen | .punct .ellipsis => return true
  | _ =>
    if ← skipParameter go then
      match ← kind with
      | .punct .colon | .punct .comma | .punct .question | .punct .eq => return true
      | .punct .rparen => do
        bump
        isAt .arrow
      | _ => return false
    else return false

/-- The result type after an arrow. -/
def arrowResult : Read Node := do
  expect .arrow
  typeOrPredicate go

def functionType : Read Node := do
  let s ← start
  let isAbstract ← eatWord "abstract"
  let isNew ← eatWord "new"
  let tps ← typeParameters go
  let (this, ps) ← parameters go false
  let (result, mark) ← located (arrowResult go)
  if isNew then part (.constructorType isAbstract) s [tps, ps, result] [mark]
  else part .functionType s [tps, this, ps, result] [mark]

def isFunctionType : Read Bool := do
  match ← kind with
  | .punct .lt => return true
  | .punct .lparen => beginsFunctionType go
  | .word "new" => return true
  | .word "abstract" => return (← peek).kind == .word "new"
  | _ => return false

/-! ## Members -/

/-- Ends a member of an interface or a type literal. -/
def endMember : Read Unit := do
  if !(← eat .comma) then endStatement

/-- After an opening bracket, a name and a colon follow. -/
def isIndexSignature : Read Bool := do
  if !(← isTyped) || !(← isAt .lbracket) then return false
  lookahead false do
    bump
    if !isName (← kind) then return false
    bumpName
    isAt .colon

/-- An index signature from its bracket on. -/
def indexSignature (s : Nat) (ms : List String) : Read Node := do
  checkModifiers .modifierOnIndex ["readonly", "static"] ms
  expect .lbracket
  let (w, name) ← bindingWord
  let (index, mark) ← located do
    expect .colon
    go .type
  let whole : Span := ⟨name.start, mark.stop⟩
  expect .rbracket
  let c ← start
  let (t, colon) ← if ← eat .colon then do
      let t ← go .type
      pure (t, [← spanFrom c])
    else do
      note .indexSignatureType
      pure (.absent, [])
  endMember
  part (.indexSignature w (ms.contains "readonly") (ms.contains "static")) s [index, t]
    (whole :: mark :: colon)

/-- What follows the key of a signature: type parameters, parameters and the result type, with the
stretch of the result type. -/
structure Signature where
  typeParameters : Node
  this : Node
  parameters : Node
  result : Node
  colon : List Span

def signature : Read Signature := do
  let tps ← typeParameters go
  let (this, ps) ← parameters go false
  let (result, colon) ← resultMark go
  return { typeParameters := tps, this, parameters := ps, result, colon }

/-- A method of a type from its parameters on. -/
def methodSignature (s : Nat) (k : MethodKind) (key : Node) (computed optional : Bool) :
    Read Node := do
  let g ← signature go
  endMember
  part (.methodSignature k computed optional) s
    [key, g.typeParameters, g.this, g.parameters, g.result] g.colon

/-- A getter or setter signature, after its keyword. -/
def accessorSignature (s : Nat) (k : MethodKind) : Read Node := do
  let (key, computed) ← propertyKey go
  methodSignature go s k key computed false

def typeMember : Read Node := do
  let s ← start
  let next ← peek
  match ← kind with
  | .punct .lparen | .punct .lt => do
    let g ← signature go
    endMember
    part .callSignature s [g.typeParameters, g.this, g.parameters, g.result] g.colon
  | k => do
    if k == .word "new" && (next.kind == .punct .lparen || next.kind == .punct .lt) then
      bump
      let g ← signature go
      endMember
      part .constructSignature s [g.typeParameters, g.parameters, g.result] g.colon
    else
      let ms ← modifiers
      let readonly := ms.contains "readonly"
      if !(← isIndexSignature) then checkModifiers .modifierOnTypeMember ["readonly"] ms
      if ← isModifier "get" then
        bump
        accessorSignature go s .get
      else if ← isModifier "set" then
        bump
        accessorSignature go s .set
      else if ← isIndexSignature then indexSignature go s ms
      else
        let (key, computed) ← propertyKey go
        let optional ← eat .question
        match ← kind with
        | .punct .lparen | .punct .lt => do
          if readonly then note (.modifierOnMethod "readonly")
          methodSignature go s .method key computed optional
        | _ => do
          let (t, colon) ← typeMark go
          endMember
          part (.propertySignature computed optional readonly) s [key, t] colon

/-- The members between braces. -/
def typeMembers : Read (List Node) := do
  expect .lbrace
  let ms ← untilMark .rbrace (typeMember go)
  expect .rbrace
  return ms

def typeLiteral : Read Node := do
  let s ← start
  let ms ← typeMembers go
  part .typeLiteral s ms

/-! ## Mapped types -/

def isMappedType : Read Bool := lookahead false do
  bump
  match ← kind with
  | .punct .plus | .punct .minus => do
    bump
    atWord "readonly"
  | _ => do
    let _ ← eatWord "readonly"
    if !(← eat .lbracket) then return false
    if !isName (← kind) then return false
    bumpName
    atWord "in"

/-- A mark with its sign, if present: a word or a question mark. -/
def mappedMark (isMark : Read Bool) : Read MappedMark := do
  if ← isMark then
    bump
    return .present
  else
    let next ← lookahead false do
      bump
      isMark
    if next && (← isAt .plus) then
      bump
      bump
      return .plus
    else if next && (← isAt .minus) then
      bump
      bump
      return .minus
    else return .none

def mappedType : Read Node := do
  let s ← start
  expect .lbrace
  let readonly ← mappedMark (atWord "readonly")
  expect .lbracket
  let (w, name) ← bindingWord
  expectWord "in"
  let bound ← go .type
  let parameter ← spanFrom name.start
  let nameType ← if ← eatWord "as" then go .type else pure .absent
  expect .rbracket
  let optional ← mappedMark (isAt .question)
  let t ← if ← eat .colon then go .type else pure .absent
  let _ ← if !(← isAt .rbrace) then endMember
  expect .rbrace
  part (.mappedType w optional readonly) s [bound, nameType, t] [parameter, name]

/-! ## Tuples -/

/-- The element has a label: a word and a colon, possibly with a question mark between them. -/
def isNamedElement : Read Bool := lookahead false do
  let _ ← eat .ellipsis
  if !isWordKind (← kind) then return false
  bumpName
  let _ ← eat .question
  isAt .colon

def tupleElement : Read Node := do
  let s ← start
  if ← isNamedElement then
    let rest ← eat .ellipsis
    let inner ← start
    let (w, name) ← anyWord
    let optional ← eat .question
    expect .colon
    let t ← go .type
    let e ← part (.namedElement w optional) inner [t] [name]
    if rest then part .restType s [e] else return e
  else if ← eat .ellipsis then
    let t ← go .type
    part .restType s [t]
  else
    let t ← go .type
    match t.form with
    | .nullableType true => return t.withForm .optionalType
    | _ => return t

def tupleType : Read Node := do
  let s ← start
  expect .lbracket
  let (es, _) ← separated .rbracket .comma (tupleElement go)
  expect .rbracket
  part .tupleType s es

/-! ## Literals and templates -/

/-- The stretch of a template's text, without the marks around it. -/
def quasiSpan (t : Token) : Span :=
  match t.kind with
  | .template .head _ | .template .middle _ => ⟨t.start + 1, t.stop - 2⟩
  | _ => ⟨t.start + 1, t.stop - 1⟩

/-- A literal inside a type. -/
def literalType : Read Node := do
  let s ← start
  let t ← token
  let (form, pieces) ← match t.kind with
    | .string v h => pure (Form.string v h, [])
    | .number v _ w => do pure (← numberForm v w, [])
    | .bigint d _ => pure (Form.bigint d, [])
    | .word "true" => pure (Form.boolean true, [])
    | .word "false" => pure (Form.boolean false, [])
    | .template .whole q => pure (Form.template [q], [quasiSpan t])
    | _ => unexpected
  bump
  let l : Node := .mk form .part ⟨⟨t.start, t.stop⟩, pieces⟩ []
  part .literalType s [l]

/-- A negated number inside a type. The number itself is an expression. -/
def negativeType : Read Node := do
  let s ← start
  expect .minus
  let t ← token
  let form ← match t.kind with
    | .number v _ w => numberForm v w
    | .bigint d _ => pure (Form.bigint d)
    | _ => unexpected
  bump
  let n : Node := .mk form .value ⟨⟨t.start, t.stop⟩, []⟩ []
  let u ← part (.unary .minus) s [n]
  part .literalType s [u]

/-- Continues a template after the closing brace of a substitution. -/
def templateTail : Read Unit := modify fun s =>
  if mark : s.token.kind = .punct .rbrace then
    let l := readTemplate false (s.size - s.pos) s.rest
    accept s (.ofLexeme l s.token.start s.trivia s.token.fresh false false [])
      (placed_ofLexeme (s.placed.mark _ mark) (readTemplate_readOff ..) ..)
  else s

/-- The pieces of a template with their stretches, and its substitutions, from the opening piece on.
Between two pieces stands at least one substitution. -/
def templatePieces (substitution : Read Node) (checked : Bool) :
    Read (List (Quasi × Span) × List Node) := do
  let check (q : Quasi) : Read Unit := do
    if checked && q.cooked.isNone then note .templateEscape
  let t ← token
  match t.kind with
  | .template .whole q => do
    check q
    bump
    return ([(q, quasiSpan t)], [])
  | .template .head q => do
    check q
    bump
    let first ← substitution
    templateTail
    let (qs, es) ← iterate (([(q, quasiSpan t)], [first]) : List (Quasi × Span) × List Node)
      fun (qs, es) => do
        let t ← token
        match t.kind with
        | .template .middle q => do
          check q
          bump
          return .more ((q, quasiSpan t) :: qs, es)
        | .template .tail q => do
          check q
          bump
          return .done ((q, quasiSpan t) :: qs, es)
        | .eof => throw (.expected TemplatePart.tail.text TokenKind.eof.text)
        | _ => do
          let e ← substitution
          templateTail
          return .more (qs, e :: es)
    return (qs.reverse, es.reverse)
  | _ => unexpected

def templateType : Read Node := do
  let s ← start
  let (qs, ts) ← templatePieces (go .type) false
  part (.templateType (qs.map Prod.fst)) s ts (qs.map Prod.snd)

/-! ## Other types -/

/-- The keyword types; with a dot after them they are names. -/
def keywordTypes : List String :=
  ["any", "unknown", "number", "object", "boolean", "string", "symbol", "never", "undefined",
   "bigint", "intrinsic"]

/-- What may begin a type. -/
def startsType : TokenKind → Bool
  | .string _ _ | .number _ _ _ | .bigint _ _ | .template .whole _ | .template .head _ => true
  | .punct p =>
    match p with
    | .lbrace | .lbracket | .lt | .pipe | .amp | .star | .question | .bang | .ellipsis
    | .lparen | .minus => true
    | _ => false
  | .word w =>
    !isReservedWord w ||
      ["this", "typeof", "void", "null", "true", "false", "new", "import", "function"].contains w
  | _ => false

/-- An import type, without a leading `typeof`. -/
def importType : Read Node := do
  let s ← start
  expectWord "import"
  expect .lparen
  let arg ← go .type
  let options ← if ← eat .comma then
      if ← isAt .rparen then pure .absent
      else do
        let o ← go (.assignment true)
        let _ ← eat .comma
        pure o
    else pure .absent
  expect .rparen
  let qualifier ← if ← eat .dot then typeName else pure .absent
  let args ← sameLineTypeArguments go
  part .importType s [arg, options, qualifier, args]

def typeQuery : Read Node := do
  let s ← start
  expectWord "typeof"
  if ← atWord "import" then
    let t ← importType go
    part .typeQuery s [t, .absent]
  else
    let n ← typeName
    let args ← sameLineTypeArguments go
    part .typeQuery s [n, args]

/-- A predicate that a call asserts: `asserts x` or `asserts x is T`. -/
def assertsPredicate : Read Node := do
  let s ← start
  bump
  let (w, name) ← anyWord
  let (t, stretch) ← if ← eatWord "is" then do
      let t ← go .type
      pure (t, [t.span])
    else pure (.absent, [])
  part (.typePredicate w true) s [t] (name :: stretch)

/-- A type without array brackets after it. -/
def primaryType : Read Node := do
  let s ← start
  match ← kind with
  | .word "this" => do
    bump
    let word ← spanFrom s
    if (← atWord "is") && !(← isFresh) then
      bump
      let t ← go .type
      part (.typePredicate "this" false) s [t] [word, t.span]
    else part .thisType s
  | .word "typeof" => typeQuery go
  | .word "import" => importType go
  | .word "void" => do
    bump
    part (.keywordType "void") s
  | .word "null" => do
    bump
    part (.keywordType "null") s
  | .word "true" | .word "false" => literalType
  | .string _ _ | .number _ _ _ | .bigint _ _ | .template .whole _ => literalType
  | .template .head _ => templateType go
  | .word "asserts" => do
    let next ← peek
    if (isName next.kind || next.kind == .word "this") && !next.fresh then assertsPredicate go
    else typeReference go
  | .word w => do
    if keywordTypes.contains w && (← peek).kind != .punct .dot then
      bump
      part (.keywordType w) s
    else typeReference go
  | .punct .lbrace => do
    if ← isMappedType then mappedType go else typeLiteral go
  | .punct .lbracket => tupleType go
  | .punct .lparen => do
    bump
    let t ← go .type
    expect .rparen
    part .parenthesizedType s [t]
  | .punct .minus => do
    if isNumberKind (← peek).kind then negativeType else typeReference go
  | .punct .question => do
    bump
    match ← kind with
    | .punct .comma | .punct .rbrace | .punct .rparen | .punct .gt | .punct .eq | .punct .pipe =>
      part .unknownType s
    | _ => do
      let t ← go .type
      part (.nullableType false) s [t]
  | .punct .star => do
    bump
    part .unknownType s
  | .punct .bang => do
    bump
    let t ← go .typeOperator
    part (.nonNullableType false) s [t]
  | _ => typeReference go

/-- A type with what follows it: brackets and marks. -/
def arrayType : Read Node := do
  let s ← start
  let t ← primaryType go
  iterate t fun t => do
    if ← isFresh then return .done t
    match ← kind with
    | .punct .lbracket => do
      bump
      if startsType (← kind) then
        let i ← go .type
        expect .rbracket
        return .more (← part .indexedType s [t, i])
      else
        expect .rbracket
        return .more (← part .arrayType s [t])
    | .punct .bang => do
      bump
      return .more (← part (.nonNullableType true) s [t])
    | .punct .question => do
      if startsType (← peek).kind then return .done t
      bump
      return .more (← part (.nullableType true) s [t])
    | _ => return .done t

/-- The constraint of an inferred type, unless it begins a conditional type. -/
def inferConstraint : Read Node := do
  let r ← attemptSome do
    if ← eatWord "extends" then
      let t ← within (fun c => { c with noConditional := true }) (go .type)
      if (← context).noConditional || !(← isAt .question) then return some t
    return none
  return r.getD .absent

/-- A type with operators before it. -/
def typeOperator : Read Node := do
  let s ← start
  let k ← kind
  match k with
  | .word "keyof" | .word "unique" | .word "readonly" => do
    bump
    let t ← go .typeOperator
    part (.typeOperator k.text) s [t]
  | .word "infer" => do
    bump
    let (w, name) ← bindingWord
    let bound ← inferConstraint go
    part (.inferType w) s [bound] [← spanFrom name.start, name]
  | _ => within (fun c => { c with noConditional := false }) (arrayType go)

/-- Constituents joined by a mark, which may also stand before the first. -/
def joinedType (mark : Punct) (form : Form) (item : Read Node) : Read Node := do
  let s ← start
  let leading ← eat mark
  let first ← item
  if leading || (← isAt mark) then
    let ts ← iterate [first] fun acc => do
      if ← eat mark then return .more ((← item) :: acc) else return .done acc
    part form s ts.reverse
  else return first

def unionType : Read Node :=
  joinedType .pipe .unionType (joinedType .amp .intersectionType (typeOperator go))

/-- Any type. -/
def type : Read Node := do
  if ← isFunctionType go then functionType go
  else
    let s ← start
    let t ← go .unionType
    if !(← context).noConditional && !(← isFresh) && (← atWord "extends") then
      bump
      let e ← within (fun c => { c with noConditional := true }) (go .type)
      expect .question
      let yes ← within (fun c => { c with noConditional := false }) (go .type)
      expect .colon
      let no ← within (fun c => { c with noConditional := false }) (go .type)
      part .conditionalType s [t, e, yes, no]
    else return t

end Read

end Splice
