import Splice.Grammar.Declaration

/-!
# Imports and exports

The statements that tie modules together. In typed sources an import or export, or one of its names,
may concern types only.
-/
namespace Splice

namespace Read

variable {input : Source} (go : Descend)

/-! ## Names and attributes -/

/-- A word or a string as a name. -/
def quotableName : Read (ModuleName × Span) := do
  let t ← token
  match t.kind with
  | .string v h => do
    bump
    return (.quoted v h, ⟨t.start, t.stop⟩)
  | _ => do
    let (w, span) ← anyWord
    return (.name w, span)

/-- The name under which a module binding is known. -/
def moduleBinding : Read (ModuleName × Span) := do
  let n ← quotableName
  match n.1 with
  | .quoted _ true => note .exportSurrogate
  | _ => pure ()
  return n

/-- The names that occur a second time. -/
def repeatedNames : (seen : List String) → List String → List String
  | _, [] => []
  | seen, w :: ws =>
    if seen.contains w then w :: repeatedNames seen ws else repeatedNames (w :: seen) ws

/-- An attribute, with the stretches of all of it, of its key and of its value. -/
def importAttribute : Read (ImportAttribute × List Span) := do
  let (key, name) ← quotableName
  expect .colon
  let ((value, surrogates), text) ← located stringText
  return ({ key, value, surrogates }, [⟨name.start, text.stop⟩, name, text])

/-- The attributes after the source of an import, and the stretches of all of them, of the keyword
and of each attribute. -/
def attributeClause : Read (Option AttributeClause × List Span) := do
  let s ← start
  let keyword ← if ← atWord "with" then pure "with"
    else if (← atWord "assert") && !(← isFresh) then pure "assert"
    else pure ""
  if keyword == "" then return (none, [])
  let (_, word) ← located bump
  expect .lbrace
  let (read, _) ← separated .rbrace .comma importAttribute
  expect .rbrace
  let entries := read.map Prod.fst
  (repeatedNames [] (entries.map fun e => e.key.text)).forM fun w => note (.duplicateAttribute w)
  return (some { keyword, entries }, (← spanFrom s) :: word :: read.flatMap Prod.snd)

/-! ## Imports -/

/-- A name of an import or export, as written: the name itself, the name after `as` if there is one,
and whether only a type is meant. -/
structure Specifier where
  first : ModuleName × Span
  second : Option (ModuleName × Span)
  typeOnly : Bool
  /-- The kind of the first name's token. -/
  firstKind : TokenKind

/-- Reads a specifier. The words `type` and `as` may also be names, which only their number
shows. -/
def specifier (typed : Bool) : Read Specifier := do
  let firstKind ← kind
  let first ← moduleBinding
  let plainRest (first : ModuleName × Span) (firstKind : TokenKind) (typeOnly : Bool) : Read Specifier := do
    if ← eatWord "as" then return { first, second := some (← moduleBinding), typeOnly, firstKind }
    else return { first, second := none, typeOnly, firstKind }
  let canName (k : TokenKind) : Bool := isWordKind k || isStringKind k
  if typed && firstKind == .word "type" && canName (← kind) then
    if ← atWord "as" then
      let asKind ← kind
      let (_, as) ← located bump
      if ← atWord "as" then
        let (_, again) ← located bump
        if canName (← kind) then
          -- type as as name
          return { first := (.name "as", as), second := some (← moduleBinding), typeOnly := true,
                   firstKind := asKind }
        else return { first, second := some (.name "as", again), typeOnly := false, firstKind }
      else if canName (← kind) then
        return { first, second := some (← moduleBinding), typeOnly := false, firstKind }
      else return { first := (.name "as", as), second := none, typeOnly := true, firstKind := asKind }
    else
      let k ← kind
      let name ← moduleBinding
      plainRest name k true
  else plainRest first firstKind false

/-- A name that is imported. -/
def importSpecifier (typeOnly : Bool) : Read Node := do
  let s ← start
  let p ← specifier ((← isTyped) && !typeOnly)
  let check (k : TokenKind) (w : String) : Read Unit := do
    match k with
    | .word _ => if !(← isUsableName (.word w)) then throw (.reservedName w)
    | _ => throw .unexpectedToken
  match p.second, p.first with
  | some (.name w, span), (first, inner) => do
    check (.word w) w
    part (.importName first w p.typeOnly) s [] [inner, span]
  | none, (.name w, span) => do
    check p.firstKind w
    part (.importName (.name w) w p.typeOnly) s [] [span, span]
  | _, _ => throw .unexpectedToken

/-- The names in braces, or all names of the module at once; nothing if neither follows. -/
def importedNames (typeOnly : Bool) : Read (Option (List Node)) := do
  let s ← start
  if ← eat .star then
    expectWord "as"
    let (w, name) ← bindingWord
    return some [← part (.importAll w) s [] [name]]
  else if ← eat .lbrace then
    let (ns, _) ← separated .rbrace .comma (importSpecifier typeOnly)
    expect .rbrace
    return some ns
  else return none

/-- The words that may stand between `import` and its names. -/
def isImportMark (w : String) : Read Bool := do
  if !(← atWord w) then return false
  lookahead false do
    bumpName
    match ← kind with
    | .punct .star | .punct .lbrace => return true
    | .word "from" => do
      -- a default import that is called `from`
      bumpName
      return (← atWord "from") || (← isAt .eq)
    | k => return isName k

/-- The rest of an import, from its source on. -/
def importSource (s : Nat) (names : List Node) (braces typeOnly : Bool) (phase : Option String) :
    Read Node := do
  let ((source, h), text) ← located stringText
  let (clause, pieces) ← attributeClause
  endStatement
  part (.importDecl source h typeOnly phase braces clause) s names (text :: pieces)

def importStatement (s : Nat) : Read Node := do
  bump
  if isStringKind (← kind) then importSource s [] false false none
  else
    let typeOnly ← if (← isTyped) && (← isImportMark "type") then eatWord "type" else pure false
    let phase ← if typeOnly then pure none
      else if ← isImportMark "source" then do
        bump
        pure (some "source")
      else if ← isImportMark "defer" then do
        bump
        pure (some "defer")
      else pure none
    if isName (← kind) then
      let d ← start
      let (w, name) ← bindingWord
      if ← isAt .eq then importEqualsRest s (w, name) typeOnly
      else
        let default ← part (.importDefault w) d [] [name]
        let others ← if ← eat .comma then do
            match ← importedNames typeOnly with
            | some ns => pure ns
            | none => unexpected
          else pure []
        expectWord "from"
        importSource s (default :: others) true typeOnly phase
    else
      let ns ← importedNames typeOnly
      expectWord "from"
      importSource s (ns.getD []) true typeOnly phase

/-! ## Exports -/

def exportSpecifier (typeOnly : Bool) : Read (Node × TokenKind) := do
  let s ← start
  let p ← specifier ((← isTyped) && !typeOnly)
  let second := p.second.getD p.first
  let n ← part (.exportName p.first.1 second.1 p.typeOnly) s [] [p.first.2, second.2]
  return (n, p.firstKind)

/-- Words that are not reserved everywhere, but in modules. -/
def moduleReserved : List String :=
  ["await", "yield", "implements", "interface", "let", "package", "private", "protected", "public",
   "static"]

/-- Names of this module have to be real names; with a source, anything goes. -/
def checkExported (k : TokenKind) : Read Unit := do
  match k with
  | .string _ _ => note .exportQuoted
  | .word w => if isReservedWord w || moduleReserved.contains w then note .exportWithoutFrom
  | _ => pure ()

def exportNames (s : Nat) (typeOnly : Bool) : Read Node := do
  expect .lbrace
  let (ns, _) ← separated .rbrace .comma (exportSpecifier typeOnly)
  expect .rbrace
  let names := ns.map fun (n, _) => n
  if ← eatWord "from" then
    let (source, text) ← located stringText
    let (clause, pieces) ← attributeClause
    endStatement
    part (.exportNamed (some source) typeOnly clause) s [.absent, .group names] (text :: pieces)
  else
    ns.forM fun (_, k) => checkExported k
    endStatement
    part (.exportNamed none typeOnly none) s [.absent, .group names]

def exportAll (s : Nat) (typeOnly : Bool) : Read Node := do
  expect .star
  let name ← if ← eatWord "as" then pure (some (← moduleBinding)) else pure none
  expectWord "from"
  let ((source, h), text) ← located stringText
  let (clause, pieces) ← attributeClause
  endStatement
  part (.exportAll (name.map Prod.fst) source h typeOnly clause) s []
    ((name.map Prod.snd).toList ++ text :: pieces)

/-- What follows `export default`. -/
def defaultExport (s : Nat) (ds : List Node) : Read Node := do
  let d ← start
  let ds ← if ds.isEmpty then decorators go else pure ds
  let isClass := (← atWord "class") || ((← atWord "abstract") && (← peek).kind == .word "class")
  if !isClass then refuseDecorators ds
  if ← atWord "class" then
    let c ← classRest go d ds {}
    part .exportDefault s [c]
  else if (← isTyped) && (← atWord "abstract") && (← peek).kind == .word "class" then
    bump
    let c ← classRest go d ds { abstract := true }
    part .exportDefault s [c]
  else if (← isTyped) && (← atWord "interface") && isName (← peek).kind && !(← peek).fresh then
    let i ← interfaceDeclaration go d false
    part .exportDefault s [i]
  else if ← isFunctionKeyword then
    let async ← eatWord "async"
    let f ← keywordFunction go d { role := .declaration, async } false
    part .exportDefault s [f]
  else
    let e ← go (.assignment true)
    endStatement
    part .exportDefault s [e]

/-- A declaration that is exported. -/
def exportedDeclaration (s : Nat) (ds : List Node) : Read Node := do
  let d ← start
  let own ← decorators go
  let decl ← if ← isTyped then do
      let ms ← declarationModifiers
      if !(← atWord "class") then refuseDecorators (ds ++ own)
      within (fun c => { c with ambient := c.ambient || ms.contains "declare" })
        (declaration go d ms (ds ++ own))
    else do
      match ← kind with
      | .word w =>
        if w != "class" then refuseDecorators (ds ++ own)
        if ["var", "let", "const", "class", "function", "async"].contains w then
          declaration go d [] (ds ++ own)
        else unexpected
      | _ => unexpected
  part (.exportNamed none false none) s [decl, .group []]

def exportStatement (s : Nat) (ds : List Node) : Read Node := do
  bump
  let typed ← isTyped
  let next ← peek
  match ← kind with
  | .punct .eq => do
    if !typed then unexpected
    bump
    let e ← go .expression
    endStatement
    part .exportAssign s [e]
  | .punct .star => exportAll s false
  | .punct .lbrace => exportNames s false
  | .word "default" => do
    bump
    defaultExport go s ds
  | .word "as" => do
    if !(typed && next.kind == .word "namespace") then unexpected
    bump
    bump
    let (w, name) ← anyWord
    endStatement
    part (.exportNamespace w) s [] [name]
  | .word "type" => do
    if typed && next.kind == .punct .lbrace then
      bump
      exportNames s true
    else if typed && next.kind == .punct .star then
      bump
      exportAll s true
    else exportedDeclaration go s ds
  | _ => exportedDeclaration go s ds

end Read

end Splice
