import Splice.Grammar.Expression

/-!
# Declarations

Variables, and the declarations of typed sources: interfaces, type aliases, enumerations and
namespaces.
-/
namespace Splice

namespace Read

variable {input : Source} (go : Descend)

/-! ## Variables -/

/-- The binding of a variable is a pattern. -/
def bindsPattern (d : Node) : Bool :=
  match ((d.child 0).child 0).form with
  | .bindingName _ => false
  | _ => true

/-- A variable needs a value where it is a constant or a pattern; ambient ones never do. -/
def checkInitial (kind : VariableKind) (d : Node) : Read Unit := do
  if (← context).ambient || (d.child 1).isPresent then return
  if bindsPattern d then note .missingPatternInit
  else if kind == .constKind then note .missingConstInit

/-- A variable that is disposed of at the end of its block is a name, and has a value unless a loop
gives it one. -/
def checkDisposed (kind : VariableKind) (inLoop : Bool) (d : Node) : Read Unit := do
  if kind == .usingKind || kind == .awaitUsing then
    if bindsPattern d then note .usingPattern
    if !inLoop && (d.child 1).isAbsent then note .missingUsingInit

/-- One variable; in the head of a loop its value may be missing. -/
def declarator (kind : VariableKind) (inLoop : Bool) : Read Node := do
  let s ← start
  let p ← go .pattern
  let typed ← isTyped
  let isWord := match p.form with
    | .bindingName _ => true
    | _ => false
  let definite ← if typed && isWord && (← isAt .bang) && !(← isFresh) then eat .bang
    else pure false
  let optional ← if typed then eat .question else pure false
  let (t, colon) ← typeMark go
  let b ← part (.binding optional) s [p, t] colon
  let v ← if ← eat .eq then go (.assignment true) else pure .absent
  let d ← part (.declarator definite) s [b, v]
  if !inLoop then checkInitial kind d
  checkDisposed kind inLoop d
  return d

/-- The variables after the keyword. -/
def variableList (s : Nat) (kind : VariableKind) (declare inLoop : Bool) : Read Node := do
  let ds ← commaList (declarator go kind inLoop)
  part (.variableDecl kind declare) s ds

/-- Variables as a statement. -/
def variableStatement (s : Nat) (kind : VariableKind) (declare : Bool) : Read Node := do
  let d ← variableList go s kind declare false
  endStatement
  part d.form s d.children d.spans.inner

def variableKind? : TokenKind → Option VariableKind
  | .word "var" => some .varKind
  | .word "let" => some .letKind
  | .word "const" => some .constKind
  | _ => none

/-- The words `using` and a name, or a pattern in braces, on one line; a loop over `using` is not
meant. -/
def isUsing (inLoop : Bool) : Read Bool := do
  if !(← atWord "using") then return false
  let next ← peek
  return (isName next.kind || next.kind == .punct .lbrace) && !next.fresh &&
    !(inLoop && next.kind == .word "of")

/-- The words `await using` and a name on one line. -/
def isAwaitUsing : Read Bool := do
  if !(← atWord "await") then return false
  lookahead false do
    bumpName
    if ← isFresh then return false
    isUsing false

/-! ## Interfaces and aliases -/

def interfaceDeclaration (s : Nat) (declare : Bool) : Read Node := do
  expectWord "interface"
  let name ← declaredName
  let tps ← typeParameters go
  let h ← heritage go
  let (ms, braces) ← located (typeMembers go)
  if h.hasContracts then note .interfaceImplements
  let bases := h.bases.map fun (e, args) => Node.mk .heritage .part e.span [e, args]
  part (.interface declare) s [name, tps, .group bases, .group ms] [braces]

def typeAlias (s : Nat) (declare : Bool) : Read Node := do
  expectWord "type"
  let name ← declaredName
  let tps ← typeParameters go
  expect .eq
  let t ← go .type
  endStatement
  part (.typeAlias declare) s [name, tps, t]

/-! ## Enumerations -/

/-- The name of an enumeration member, and whether it stands in brackets. -/
def enumName : Read (Node × Bool) := do
  let t ← token
  let span : Span := ⟨t.start, t.stop⟩
  match t.kind with
  | .string v h => do
    bump
    return (.mk (.quotedName v h) .part span [], false)
  | .punct .lbracket => do
    let e ← computedKey go
    match e.form with
    | .string v h => return (.mk (.quotedName v h) .part e.span [], true)
    | .template [_] => return (e.withPlace .part, true)
    | .number _ _ => throw .enumNumeric
    | _ => throw .enumComputed
  | .template _ _ => throw .enumComputed
  | .number _ _ _ | .bigint _ _ => throw .enumNumeric
  | _ => do
    let (w, span) ← anyWord
    return (.mk (.name w) .part span [], false)

def enumMember : Read Node := do
  let s ← start
  let (name, computed) ← enumName go
  let v ← if ← eat .eq then go (.assignment true) else pure .absent
  part (.enumMember computed) s [name, v]

def enumDeclaration (s : Nat) (isConst declare : Bool) : Read Node := do
  expectWord "enum"
  let name ← declaredName
  let b ← start
  expect .lbrace
  let (ms, _) ← separated .rbrace .comma (enumMember go)
  expect .rbrace
  part (.enumDecl isConst declare) s [name, .group ms] [← spanFrom b]

/-! ## Namespaces -/

def moduleBlock : Read Node := do
  let s ← start
  expect .lbrace
  let items ← statements go false
  expect .rbrace
  part .moduleBlock s items

/-- The name of a namespace, or the quoted name of a module. -/
def moduleName : Read Node := do
  let t ← token
  match t.kind with
  | .string v h => do
    bump
    return .mk (.quotedName v h) .part ⟨⟨t.start, t.stop⟩, []⟩ []
  | _ => declaredName

def moduleDeclaration (s : Nat) (declare : Bool) : Read Node := do
  let keyword := (← kind).text
  bump
  let first ← moduleName
  let names ← iterate [first] fun acc => do
    if ← eat .dot then return .more ((← declaredName) :: acc) else return .done acc
  let body ← if ← isAt .lbrace then moduleBlock go
    else do
      endStatement
      pure .absent
  let stop := (← get).lastStop
  let inner := names.dropLast.foldl (fun b n =>
    .mk (.moduleDecl "" false) .part ⟨⟨n.start, stop⟩, []⟩ [n, b]) body
  part (.moduleDecl keyword declare) s [first, inner]

def globalDeclaration (s : Nat) (declare : Bool) : Read Node := do
  let (_, word) ← located (expectWord "global")
  let b ← moduleBlock go
  part (.globalDecl declare) s [b] [word]

/-! ## Aliases of imports -/

/-- What an imported name stands for, after the equals sign. -/
def importedEntity : Read Node := do
  let s ← start
  if ← eatWord "require" then
    expect .lparen
    let ((v, h), source) ← located stringText
    expect .rparen
    part (.externalModule v h) s [] [source]
  else typeName

/-- The rest of an import alias, from its equals sign on. -/
def importEqualsRest (s : Nat) (name : String × Span) (typeOnly : Bool) : Read Node := do
  expect .eq
  let e ← importedEntity
  endStatement
  if !(← isTyped) then note .importEqualsUntyped
  part (.importEquals name.1 typeOnly) s [e] [name.2]

/-! ## Choice -/

/-- Modifiers before a declaration. -/
def declarationWords : List String :=
  ["declare", "abstract", "accessor", "private", "protected", "public", "readonly", "static"]

/-- A declaration begins here, after any number of modifiers. -/
def beginsDeclaration : Read Bool := lookahead false do
  iterate false fun _ => do
    match ← kind with
    | .word w =>
      match w with
      | "var" | "let" | "const" | "function" | "class" | "enum" => return .done true
      | "interface" | "type" => do
        bumpName
        return .done (isName (← kind) && !(← isFresh))
      | "module" | "namespace" => do
        bumpName
        let k ← kind
        return .done (!(← isFresh) && (isName k || isStringKind k))
      | "global" => do
        bumpName
        match ← kind with
        | .word "export" => return .done true
        | .punct .lbrace => return .done true
        | k => return .done (isName k && !isKeyword k.text)
      | "import" => do
        bumpName
        match ← kind with
        | .string _ _ | .punct .star | .punct .lbrace | .word _ => return .done true
        | _ => return .done false
      | "export" => do
        bumpName
        match ← kind with
        | .punct .eq | .punct .star | .punct .lbrace | .punct .atSign => return .done true
        | .word "default" | .word "as" => return .done true
        | _ => return .done false
      | "static" => do
        bumpName
        return .more false
      | "abstract" | "accessor" | "async" | "declare" | "private" | "protected" | "public"
      | "readonly" => do
        bumpName
        if ← isFresh then return .done false else return .more false
      | _ => return .done false
    | _ => return .done false

/-- The modifiers before a declaration. -/
def declarationModifiers : Read (List String) := do
  let ms ← iterate ([] : List String) fun acc => do
    match ← kind with
    | .word w =>
      let isMark ← if w == "const" then pure ((← peek).kind == .word "enum")
        else pure (declarationWords.contains w)
      if isMark then
        bump
        return .more (w :: acc)
      else return .done acc
    | _ => return .done acc
  return ms.reverse

/-- A declaration after its modifiers. -/
def declaration (s : Nat) (ms : List String) (ds : List Node) : Read Node := do
  let declare := ms.contains "declare"
  let k ← kind
  match k with
  | .word "namespace" | .word "module" => do
    checkModifiers .modifierMisplaced ["declare"] ms
    moduleDeclaration go s declare
  | .word "global" => do
    checkModifiers .modifierMisplaced ["declare"] ms
    globalDeclaration go s declare
  | .word "type" => do
    checkModifiers .modifierMisplaced ["declare"] ms
    typeAlias go s declare
  | .word "interface" => do
    checkModifiers .modifierMisplaced ["declare"] ms
    interfaceDeclaration go s declare
  | .word "enum" => do
    checkModifiers .modifierMisplaced ["declare", "const"] ms
    enumDeclaration go s (ms.contains "const") declare
  | .word "class" => do
    checkModifiers .modifierMisplaced ["declare", "abstract"] ms
    classRest go s ds { abstract := ms.contains "abstract", declare }
  | .word "import" => do
    bump
    let typeOnly ← if (← atWord "type") && (← peek).kind != .punct .eq then eatWord "type"
      else pure false
    importEqualsRest s (← bindingWord) typeOnly
  | _ => do
    match variableKind? k with
    | some kind => do
      checkModifiers .modifierMisplaced ["declare"] ms
      bump
      variableStatement go s kind declare
    | none => do
      if ← isFunctionKeyword then
        checkModifiers .modifierMisplaced ["declare"] ms
        let async ← eatWord "async"
        keywordFunction go s { role := .declaration, async, declare } true
      else unexpected

/-- A declaration after its modifiers, which say whether it is ambient. -/
def modifiedDeclaration (s : Nat) (ms : List String) (ds : List Node) : Read Node :=
  within (fun c => { c with ambient := c.ambient || ms.contains "declare", inAsync := false })
    (declaration go s ms ds)

/-- A declaration with its modifiers. -/
def declarationStatement (s : Nat) (ds : List Node) : Read Node := do
  modifiedDeclaration go s (← declarationModifiers) ds

end Read

end Splice
