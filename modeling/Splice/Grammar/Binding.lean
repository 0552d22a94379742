import Splice.Grammar.Name

/-!
# Bindings and parameters

Patterns that bind names, with default values and type annotations, decorators, the modifiers before
parameters and class members, and lists of parameters.
-/
namespace Splice

namespace Read

variable {input : Source} (go : Descend)

/-! ## Keys -/

/-- Reads a key in brackets. -/
def computedKey : Read Node := do
  expect .lbracket
  let e ← within (fun c => { c with allowIn := true }) (go (.assignment true))
  expect .rbracket
  return e

/-- A number as written; one without a value ends the reading. -/
def numberForm (value : Option Double) (written : String) : Read Form :=
  match value with
  | some v => pure (.number v written)
  | none => throw .invalidNumber

/-- Reads a literal as a key. -/
def literalKey : Read Node := do
  let t ← token
  let form ← match t.kind with
    | .string v s => pure (Form.string v s)
    | .number v _ w => numberForm v w
    | .bigint d _ => pure (Form.bigint d)
    | _ => unexpected
  bump
  return .mk form .value ⟨⟨t.start, t.stop⟩, []⟩ []

/-- Reads the key of a property, and whether it is computed. -/
def propertyKey : Read (Node × Bool) := do
  let t ← token
  match t.kind with
  | .string _ _ | .number _ _ _ | .bigint _ _ => return (← literalKey, false)
  | .punct .lbracket => return (← computedKey go, true)
  | .privateName n => do
    bump
    return (.mk (.privateName n) .part ⟨⟨t.start, t.stop⟩, []⟩ [], false)
  | _ => do
    let (w, span) ← anyWord
    return (.mk (.name w) .part span [], false)

/-! ## Types after a colon -/

/-- The type after a colon, if there is one, and the stretch from the colon on. -/
def typeMark : Read (Node × List Span) := do
  if !(← isTyped) then return (.absent, [])
  let s ← start
  if ← eat .colon then
    let t ← go .type
    return (t, [← spanFrom s])
  else return (.absent, [])

/-- A word that a type predicate speaks of: `x is`. -/
def predicateName : Read (Option (String × Span)) := attemptSome do
  if !isName (← kind) then return none
  let w ← anyWord
  if (← atWord "is") && !(← isFresh) then
    bump
    return some w
  else return none

/-- A type, or a predicate about a parameter. -/
def typeOrPredicate : Read Node := do
  let s ← start
  match ← predicateName with
  | some (w, name) =>
    let t ← go .type
    part (.typePredicate w false) s [t] [name, t.span]
  | none => go .type

/-- The result type after a colon, if there is one, and the stretch from the colon on. -/
def resultMark : Read (Node × List Span) := do
  if !(← isTyped) then return (.absent, [])
  let s ← start
  if ← eat .colon then
    let t ← typeOrPredicate go
    return (t, [← spanFrom s])
  else return (.absent, [])

/-! ## Patterns -/

/-- The default value after a pattern that began at `s`. -/
def withDefault (s : Nat) (pattern : Node) : Read Node := do
  if ← eat .eq then
    let v ← within (fun c => { c with allowIn := true }) (go (.assignment true))
    part .defaultPattern s [pattern, v]
  else return pattern

/-- A pattern with a type, and where it may be `omissible` with a mark that says so. -/
def typedPattern (omissible : Bool) : Read Node := do
  let s ← start
  let p ← go .pattern
  let optional ← if omissible && (← isTyped) then eat .question else pure false
  let (t, colon) ← typeMark go
  part (.binding optional) s [p, t] colon

/-- A pattern with a type and a default value. -/
def patternWithDefault : Read Node := do
  let s ← start
  let p ← typedPattern go true
  withDefault go s p

/-- The name of a binding as a pattern. -/
def bindingPatternName : Read Node := do
  let (w, span) ← bindingWord
  return .mk (.bindingName w) .part span []

/-- A rest element. It has no default value. -/
def restElement : Read Node := do
  let s ← start
  expect .ellipsis
  let inner ← start
  let p ← go .pattern
  if (← isTyped) && (← isAt .question) then
    bump
    note .restOptional
  let (t, colon) ← typeMark go
  let b ← withDefault go inner (← part (.binding false) inner [p, t] colon)
  match b.form with
  | .defaultPattern => note .restInitialiser
  | _ => pure ()
  part .restElement s [b]

/-- One more element of a pattern or a parameter list, unless it ends here: the elements so far, the
rest element, and whether none has been read. -/
def nextElement (close : Punct) (last : Problem) (element : Read Node) (acc : List Node)
    (rest : Option Node) (first : Bool) : Read (Step (List Node × Option Node × Bool)) := do
  if ← atClose close then return .done (acc, rest, first)
  if !first then
    expect .comma
    if ← isAt close then
      if rest.isSome && !(← context).ambient then note .restTrailingComma
      return .done (acc, rest, false)
  if rest.isSome then note last
  if ← isAt .ellipsis then
    let r ← restElement go
    return .more (acc, some r, false)
  else
    let e ← element
    return .more (e :: acc, rest, false)

/-- Elements up to the closing mark; a rest element has to be the last. -/
def elementsWithRest (close : Punct) (last : Problem) (element : Read Node) : Read (List Node) := do
  let (items, rest, _) ← iterate (([], none, true) : List Node × Option Node × Bool)
    fun (acc, rest, first) => nextElement go close last element acc rest first
  return items.reverse ++ rest.toList

/-- A property of an object pattern. -/
def bindingProperty : Read Node := do
  let s ← start
  let first ← kind
  let (key, computed) ← propertyKey go
  if isName first && !(← isAt .colon) then
    match first with
    | .word w =>
      let b : Node := .mk (.binding false) .part key.span
        [.mk (.bindingName w) .part key.span [], .absent]
      let v ← withDefault go s b
      part (.bindingProperty true computed) s [key, v]
    | _ => unexpected
  else
    expect .colon
    let v ← patternWithDefault go
    part (.bindingProperty false computed) s [key, v]

/-- The rest of an object is bound to a plain name. -/
def checkObjectRest (n : Node) : Read Unit :=
  match n.form, (n.child 0).form, ((n.child 0).child 0).form with
  | .restElement, .binding _, .bindingName _ => pure ()
  | .restElement, _, _ => note .restPattern
  | _, _, _ => pure ()

def objectPattern : Read Node := do
  let s ← start
  expect .lbrace
  let items ← elementsWithRest go .rbrace .patternRestNotLast (bindingProperty go)
  items.forM checkObjectRest
  expect .rbrace
  part .objectPattern s items

def arrayPattern : Read Node := do
  let s ← start
  expect .lbracket
  let items ← elementsWithRest go .rbracket .patternRestNotLast do
    if ← isAt .comma then
      let p ← start
      return .mk .hole .part ⟨⟨p, p⟩, []⟩ []
    else patternWithDefault go
  expect .rbracket
  part .arrayPattern s items

/-- A pattern without type. -/
def pattern : Read Node := do
  match ← kind with
  | .punct .lbrace => objectPattern go
  | .punct .lbracket => arrayPattern go
  | _ => bindingPatternName

/-! ## Decorators and modifiers -/

/-- One more decorator, if one comes next. An optional chain has to stand in parentheses. -/
def nextDecorator (acc : List Node) : Read (Step (List Node)) := do
  if ← isAt .atSign then
    let s ← start
    bump
    let e ← within (fun c => { c with inDecorator := true }) (go .leftHandSide)
    match e.form with
    | .chain => note .decoratorForm
    | _ => pure ()
    return .more ((← part .decorator s [e]) :: acc)
  else return .done acc

/-- Decorators before a declaration. -/
def decorators : Read (List Node) := do
  let ds ← iterate ([] : List Node) (nextDecorator go)
  return ds.reverse

/-- Decorators stand only before classes, their members and the parameters of these. -/
def refuseDecorators (ds : List Node) : Read Unit := ds.forM fun _ => note .decoratorMisplaced

/-- Words that say from where a member may be used. -/
def accessWords : List String := ["public", "private", "protected"]

/-- The words that may stand before a member or a parameter. -/
def modifierWords : List String :=
  accessWords ++ ["declare", "static", "readonly", "abstract", "override", "async", "accessor"]

/-- A modifier stands only once, and so does the kind of access. -/
def checkRepeated (seen : List String) (w : String) : Read Unit :=
  if accessWords.contains w && seen.any accessWords.contains then note .accessRepeated
  else if seen.contains w then note (.modifierRepeated w)
  else pure ()

/-- One more modifier, if one comes next. -/
def nextModifier (acc : List String) : Read (Step (List String)) := do
  match ← kind with
  | .word w =>
    if !modifierWords.contains w then return .done acc
    if w == "static" && (acc.contains w || (← peek).kind == .punct .lbrace) then return .done acc
    if ← isModifier w then
      bump
      checkRepeated acc w
      return .more (w :: acc)
    else return .done acc
  | _ => return .done acc

/-- Reads the modifiers before a name. A brace after `static` begins a block instead, and a second
`static` is a name. -/
def modifiers : Read (List String) := do
  let ms ← iterate ([] : List String) nextModifier
  return ms.reverse

/-- Modifiers other than the allowed ones are faults. -/
def checkModifiers (problem : String → Problem) (allowed ms : List String) : Read Unit :=
  ms.forM fun m => if allowed.contains m then pure () else note (problem m)

def accessOf (ms : List String) : Option Access :=
  if ms.contains "public" then some .isPublic
  else if ms.contains "private" then some .isPrivate
  else if ms.contains "protected" then some .isProtected
  else none

/-! ## Parameters -/

/-- A parameter; only those of class members are `decorated`. -/
def parameter (decorated : Bool) : Read Node := do
  let s ← start
  let ds ← decorators go
  if !decorated then refuseDecorators ds
  let ms ← modifiers
  if ← isTyped then
    checkModifiers .modifierOnParameter (accessWords ++ ["readonly", "override"]) ms
  else checkModifiers (fun _ => .parameterModifier) [] ms
  let p ← patternWithDefault go
  part (.parameter (accessOf ms) (ms.contains "override") (ms.contains "readonly")) s
    [.group ds, p]

/-- A parameter named `this`, which only states a type. -/
def thisParameter : Read Node := do
  if (← isTyped) && (← atWord "this") then
    let s ← start
    bump
    let word ← spanFrom s
    let (t, colon) ← typeMark go
    let p ← part .thisParameter s [t] (word :: colon)
    if !(← isAt .rparen) then expect .comma
    return p
  else return .absent

/-- A list of parameters in parentheses: the `this` parameter, and all others. -/
def parameters (decorated : Bool) : Read (Node × Node) := do
  let s ← start
  expect .lparen
  let this ← thisParameter go
  let items ← elementsWithRest go .rparen .restNotLast (parameter go decorated)
  expect .rparen
  return (this, ← part .parameters s items)

/-! ## Type parameters and arguments -/

/-- One type parameter with its modifiers, constraint and default. -/
def typeParameter : Read Node := do
  let s ← start
  let isMark (w : String) : Read Bool := do
    if !(← atWord w) then return false
    let next ← peek
    return isWordKind next.kind && next.kind != .word "extends"
  let ms ← iterate ([] : List String) fun acc => do
    for w in ["const", "in", "out"] do
      if !acc.contains w && (← isMark w) then
        bump
        return .more (w :: acc)
    return .done acc
  let (w, name) ← bindingWord
  let bound ← if ← eatWord "extends" then go .type else pure .absent
  let default ← if ← eat .eq then go .type else pure .absent
  part (.typeParameter w (ms.contains "const") (ms.contains "in") (ms.contains "out")) s
    [bound, default] [name]

/-- Splits a doubled opening angle bracket, so that only its first half is the token. -/
def splitAngle : Read Unit := modify fun s =>
  if mark : s.token.kind = .punct .shl then
    { s with
      token := { s.token with kind := .punct .lt, stop := s.token.start + 1 }
      rest := '<' :: s.rest
      pos := s.token.start + 1
      placed := s.placed.respell mark rfl rfl }
  else if mark : s.token.kind = .punct .shlEq then
    { s with
      token := { s.token with kind := .punct .lt, stop := s.token.start + 1 }
      rest := '<' :: '=' :: s.rest
      pos := s.token.start + 1
      placed := s.placed.respell mark rfl rfl }
  else s

/-- Type parameters in angle brackets, if there are any. -/
def typeParameters : Read Node := do
  if !(← isTyped) then return .absent
  if !(← isAt .lt) then return .absent
  let s ← start
  bump
  let (ps, _) ← separated .gt .comma (typeParameter go)
  expect .gt
  if ps.isEmpty then note .typeParametersEmpty
  part .typeParameters s ps

/-- Type arguments in angle brackets, if there are any. -/
def typeArguments : Read Node := do
  splitAngle
  if !(← isAt .lt) then return .absent
  let s ← start
  bump
  let (ts, _) ← separated .gt .comma (go .type)
  expect .gt
  if ts.isEmpty then note .typeArgumentsEmpty
  part .typeArguments s ts

end Read

end Splice
