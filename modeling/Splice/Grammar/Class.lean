import Splice.Grammar.Function

/-!
# Classes

Classes with their heritage and members: methods, accessors, fields, static blocks and index
signatures.
-/
namespace Splice

namespace Read

variable {input : Source} (go : Descend)

/-! ## Heritage -/

/-- What follows `extends` or `implements`. -/
structure Heritage where
  /-- Expressions with their type arguments. -/
  bases : List (Node × Node) := []
  contracts : List Node := []
  hasContracts : Bool := false

/-- An expression that is extended, with its type arguments. -/
def base : Read (Node × Node) := do
  let e ← go .leftHandSide
  match e.form, e.children with
  | .instantiation, [inner, args] => return (inner, args)
  | _, _ => do
    let args ← if ← isTyped then typeArguments go else pure .absent
    return (e, args)

/-- One or more items with commas between them. -/
def commaList {α : Type} (item : Read α) : Read (List α) := do
  let first ← item
  let items ← iterate [first] fun acc => do
    if ← eat .comma then return .more ((← item) :: acc) else return .done acc
  return items.reverse

/-- A type that is implemented. -/
def contract : Read Node := do
  let s ← start
  let n ← typeName
  let args ← sameLineTypeArguments go
  part .implemented s [n, args]

def heritage : Read Heritage :=
  iterate ({} : Heritage) fun h => do
    if ← atWord "extends" then
      if !h.bases.isEmpty then note .extendsTwice
      else if h.hasContracts then note .extendsLate
      bump
      let bs ← commaList (base go)
      return .more { h with bases := h.bases ++ bs }
    else if ← atWord "implements" then
      if h.hasContracts then note .implementsTwice
      bump
      let cs ← commaList (contract go)
      return .more { h with contracts := h.contracts ++ cs, hasContracts := true }
    else return .done h

/-! ## Members -/

/-- What the modifiers say of a member. -/
def memberTraits (ms : List String) : MemberTraits :=
  { access := accessOf ms
    isStatic := ms.contains "static"
    abstract := ms.contains "abstract"
    override := ms.contains "override"
    readonly := ms.contains "readonly"
    declare := ms.contains "declare"
    accessor := ms.contains "accessor" }

/-- The text of a key that is not computed. -/
def keyText? (key : Node) : Option String :=
  match key.form with
  | .name w => some w
  | .string v _ => some v
  | _ => none

/-- Reads the key of a member. A private name says by itself from where it may be used. -/
def memberKey (ms : List String) : Read (Node × Bool) := do
  let (key, computed) ← propertyKey go
  match key.form with
  | .privateName w => do
    if ← isTyped then
      ms.forM fun m => if accessWords.contains m then note .accessOnPrivate else pure ()
    if w == "constructor" then note .privateConstructor
  | _ => pure ()
  return (key, computed)

/-- A method from its parameters on. -/
def method (s : Nat) (ds : List Node) (key : Node) (traits : MemberTraits) (async generator : Bool) :
    Read Node := do
  let f ← functionRest go (← start) .absent { role := .method, async, generator } true
  let named := if traits.computed then none else keyText? key
  if traits.isStatic && named == some "prototype" && !(← context).ambient then
    note .staticPrototype
  if !traits.isStatic && named == some "constructor" then
    if traits.kind == .get || traits.kind == .set then note .constructorAccessor
    if async then note .constructorAsync
    if generator then note .constructorGenerator
  match traits.kind with
  | .get => checkAccessor .get f
  | .set => checkAccessor .set f
  | .constructor => do
    if (f.child 1).isPresent then note .constructorTypeParameters
    if (f.child 2).isPresent then note .constructorThis
  | .method => pure ()
  part (.method traits) s [.group ds, key, f]

/-- A field from its type on. -/
def field (s : Nat) (ds : List Node) (key : Node) (traits : MemberTraits) : Read Node := do
  let (t, colon) ← typeMark go
  let v ← if ← eat .eq then
      within (fun c => { c with allowIn := true, inGenerator := false, inAsync := false })
        (go .expression)
    else pure .absent
  if ← canEnd then
    let _ ← eat .semicolon
  else expect .semicolon
  if !traits.computed then
    if keyText? key == some "constructor" then note .fieldConstructor
    if traits.isStatic && keyText? key == some "prototype" then note .staticPrototype
  part (.field traits) s [.group ds, key, t, v] colon

/-- The name `constructor`, or the same in quotes with parameters after it. -/
def isConstructor : Read Bool := do
  match ← kind with
  | .word "constructor" => return true
  | .string "constructor" false => return (← peek).kind == .punct .lparen
  | _ => return false

/-- A method or field that is neither a constructor nor an accessor. -/
def methodOrField (s : Nat) (ds : List Node) (ms : List String) : Read Node := do
  let generator ← eat .star
  let (key, computed) ← memberKey go ms
  let optional ← eat .question
  let traits := { memberTraits ms with computed, optional }
  match ← kind with
  | .punct .lparen | .punct .lt => method go s ds key traits (ms.contains "async") generator
  | _ => do
    if generator then method go s ds key traits (ms.contains "async") true
    else
      let definite ← if ← isFresh then pure false else eat .bang
      if optional && definite then note .optionalDefinite
      if optional && traits.accessor then note .accessorQuestion
      field go s ds key { traits with definite }

/-- A getter or setter from its key on. -/
def accessorMember (s : Nat) (ds : List Node) (ms : List String) (kind : MethodKind) :
    Read Node := do
  let (key, computed) ← memberKey go ms
  method go s ds key { memberTraits ms with kind, computed } false false

def classMember : Read Node := do
  let s ← start
  let ds ← decorators go
  let ms ← modifiers
  if (← atWord "static") && (← peek).kind == .punct .lbrace then
    refuseDecorators ds
    bump
    let b ← within (fun c => { c with inAsync := true, inGenerator := false, inFunction := false })
      (go .block)
    part .staticBlock s b.children
  else if ← isModifier "get" then
    bump
    accessorMember go s ds ms .get
  else if ← isModifier "set" then
    bump
    accessorMember go s ds ms .set
  else if ← isIndexSignature then
    indexSignature go s ms
  else if !ms.contains "static" && (← isConstructor) then
    let (key, computed) ← memberKey go ms
    method go s ds key { memberTraits ms with kind := .constructor, computed }
      (ms.contains "async") false
  else
    match ← kind with
    | .punct .star => within (ambientIf ms) (methodOrField go s ds ms)
    | k =>
      if startsKey k then within (ambientIf ms) (methodOrField go s ds ms) else unexpected
where
  /-- Declared members are ambient. -/
  ambientIf (ms : List String) (c : Context) : Context :=
    { c with ambient := c.ambient || ms.contains "declare" }

/-- The members between braces; semicolons may stand among them. -/
def classBody : Read (List Node) := do
  expect .lbrace
  let ms ← iterate ([] : List Node) fun acc => do
    if ← eat .semicolon then return .more acc
    match ← kind with
    | .eof | .punct .rbrace => return .done acc
    | _ => return .more ((← classMember go) :: acc)
  expect .rbrace
  return ms.reverse

/-! ## Classes -/

/-- A class from its keyword on. -/
def classRest (s : Nat) (ds : List Node) (traits : ClassTraits) : Read Node := do
  expectWord "class"
  let name ← match ← kind with
    | .word w =>
      if isReservedWord w || w == "implements" then pure Node.absent else declaredName
    | _ => pure Node.absent
  let tps ← typeParameters go
  let h ← heritage go
  let (super, superArgs) := h.bases.headD (.absent, .absent)
  let (ms, braces) ← located (classBody go)
  let parts := [.group ds, name, tps, super, superArgs, .group h.contracts, .group ms]
  if traits.expression then value (.classDef traits) s parts [braces]
  else part (.classDef traits) s parts [braces]

/-- A class as an expression; only a class may follow decorators. -/
def classExpression : Read Node := do
  let s ← start
  let ds ← decorators go
  let c ← start
  if !(← atWord "class") then unexpected
  classRest go (if ds.isEmpty then c else s) ds { expression := true }

end Read

end Splice
