import Splice.Print.Statement

/-!
# Printing modules and declarations

Imports and exports, and the declarations of typed sources.
-/
namespace Splice

namespace Print

open Emit

/-! ## Names and attributes -/

def moduleName : ModuleName → Emit
  | .name t => text t
  | .quoted t s => quoted t s false

/-- The attributes of an import. -/
def attributeClause (c : Option AttributeClause) : Emit :=
  match c with
  | none => pure ()
  | some c => do
    text c.keyword
    softSpace
    char '{'
    if !c.entries.isEmpty then
      softSpace
      list (fun (e : ImportAttribute) => do
        moduleName e.key
        colon
        quoted e.value e.surrogates false) c.entries
      softSpace
    char '}'

/-! ## Imports -/

def importName (imported : ModuleName) (name : String) (typeOnly : Bool) : Emit := do
  if typeOnly then text "type "
  moduleName imported
  if imported.text != name then
    text " as "
    text name

/-- The names after `import`, in the order in which they are written. -/
def importNames (ps : List Piece) : Emit := do
  let isNamed (p : Piece) : Bool := match p.form with
    | .importName _ _ _ => true
    | _ => false
  let others := ps.filter fun p => !isNamed p
  let named := ps.filter isNamed
  for (p, i) in others.zipIdx do
    match p.form with
    | .importDefault w => do
      if i == 0 then space else comma
      text w
      if ps.length == 1 then space
    | .importAll w => do
      if i == 0 then softSpace else comma
      char '*'
      softSpace
      text "as "
      text w
      space
    | _ => pure ()
  if !named.isEmpty then
    if !others.isEmpty then char ','
    softSpace
    char '{'
    softSpace
    list Piece.plain named
    softSpace
    char '}'
    softSpace

/-- An import of nothing gives its source as it is. -/
def emptyImport (source : String) (clause : Option AttributeClause) : Emit := do
  softSpace
  text "\x7b\x7d"
  softSpace
  text "from"
  softSpace
  char '\x22'
  text source
  char '\x22'
  if clause.isSome then space
  attributeClause clause

def importDecl (source : String) (surrogates typeOnly : Bool) (phase : Option String)
    (hasNames : Bool) (clause : Option AttributeClause) (ps : List Piece) : Emit := do
  word "import"
  if typeOnly then text " type"
  match phase with
  | some p => do
    space
    text p
  | none => pure ()
  if hasNames && ps.isEmpty then emptyImport source clause
  else
    if hasNames then
      importNames ps
      text "from"
    softSpace
    quoted source surrogates false
    if clause.isSome then softSpace
    attributeClause clause

def importEquals (name : String) (typeOnly : Bool) (e : Piece) : Emit := do
  text "import "
  if typeOnly then text "type "
  text name
  text " = "
  e.plain

def externalModule (source : String) (surrogates : Bool) : Emit := do
  text "require("
  quoted source surrogates false
  char ')'

/-! ## Exports -/

def exportName (inner exported : ModuleName) (typeOnly : Bool) : Emit := do
  if typeOnly then text "type "
  moduleName inner
  if inner.text != exported.text then
    text " as "
    moduleName exported

/-- The mark of an exported function without side effects. -/
def exportMark (p : Piece) : Emit :=
  match p.form with
  | .function t => do
    if t.pure then
      text inertMark
      newline
  | _ => pure ()

def exportNamed (source : Option (String × Bool)) (typeOnly : Bool) (decl : Piece)
    (names : List Piece) (spot : Spot) : Emit := do
  exportMark decl
  word "export"
  if decl.isPresent then
    space
    decl.emit spot.inside
    match ending decl.form with
    | .semicolon => endStatement
    | _ => do
      softNewline
      settled
  else
    if typeOnly then text " type"
    softSpace
    char '{'
    if !names.isEmpty then
      softSpace
      list Piece.plain names
      softSpace
    char '}'
    match source with
    | some (s, h) => do
      softSpace
      text "from"
      softSpace
      quoted s h false
    | none => pure ()
    endStatement

def exportAll (exported : Option ModuleName) (source : String) (surrogates typeOnly : Bool)
    (clause : Option AttributeClause) : Emit := do
  word "export"
  if typeOnly then text " type " else softSpace
  char '*'
  match exported with
  | some m => do
    softSpace
    text "as "
    moduleName m
    space
  | none => softSpace
  text "from"
  softSpace
  quoted source surrogates false
  if clause.isSome then space
  attributeClause clause

def exportDefault (p : Piece) (spot : Spot) : Emit := do
  exportMark p
  word "export"
  text " default "
  match p.form with
  | .function t => do
    if t.role == .declaration then
      spaceBeforeWord
      p.emit spot.inside
      softNewline
    else value p
  | .classDef t => do
    if t.expression then value p
    else
      spaceBeforeWord
      p.emit spot.inside
      softNewline
  | .interface _ => do
    spaceBeforeWord
    p.plain
  | _ => value p
where
  /-- An expression as the default export. -/
  value (p : Piece) : Emit := do
    modify fun o => { o with defaultStart := o.size }
    p.item
    endStatement

/-! ## Declarations of types -/

/-- The word `declare` before a declaration. -/
def declared (declare : Bool) : Emit := do if declare then text "declare "

def interface (name tps : Piece) (bases ms : List Piece) : Emit := do
  word "interface"
  space
  name.plain
  tps.plain
  if !bases.isEmpty then
    text " extends "
    list Piece.plain bases
  softSpace
  typeMembers ms {}

def heritage (e args : Piece) : Emit := do
  e.emit (.of .call)
  args.plain

def typeAlias (declare : Bool) (name tps t : Piece) : Emit := do
  declared declare
  word "type"
  space
  name.plain
  tps.plain
  equals
  t.plain

def enumMembers (spot : Spot) : List Piece → Emit
  | [] => pure ()
  | m :: rest => do
    commentsAt m.start
    indent
    m.emit spot.inside
    if !rest.isEmpty then char ','
    softNewline
    enumMembers spot rest

/-- An enumeration begins with an indentation of its own. -/
def enumDecl (isConst declare : Bool) (name : Piece) (ms : List Piece) (spot : Spot) : Emit := do
  indent
  declared declare
  if isConst then text "const "
  word "enum"
  space
  name.plain
  space
  braces ms.isEmpty (enumMembers spot ms)

/-- A member of an enumeration; its value is printed without regard to commas. -/
def enumMember (computed : Bool) (name v : Piece) (spot : Spot) : Emit := do
  if computed then
    char '['
    name.plain
    char ']'
  else name.plain
  if v.isPresent then
    equals
    v.emit spot.inside

def moduleBlock (ps : List Piece) (spot : Spot) : Emit := do
  braces ps.isEmpty do
    directives ps
    statementList (ps.drop (directiveCount ps)) spot
  settled

/-- A namespace; the inner names of a dotted one follow a dot. -/
def moduleDecl (keyword : String) (declare : Bool) (name b : Piece) (spot : Spot) : Emit := do
  declared declare
  if keyword.isEmpty then char '.'
  else
    text keyword
    space
  name.plain
  match b.form with
  | .absent => semicolon
  | .moduleDecl _ _ => b.emit spot.inside
  | _ => do
    softSpace
    b.emit spot.inside

def globalDecl (declare : Bool) (b : Piece) (spot : Spot) : Emit := do
  declared declare
  text "global"
  softSpace
  b.emit spot.inside

end Print

end Splice
