import Splice.Print.Function

/-!
# Printing types

Types keep the parentheses of the source.
-/
namespace Splice

namespace Print

open Emit

/-! ## Names, parameters and arguments -/

/-- Two or more parameters have a line each. -/
def typeLines : (first : Bool) → List Piece → Emit
  | _, [] => pure ()
  | first, p :: rest => do
    if !first then char ','
    softNewline
    indent
    p.plain
    typeLines false rest

/-- Type parameters. Where elements may stand, a single parameter needs a comma to be told from a
tag. -/
def typeParameters (ps : List Piece) : Emit := do
  char '<'
  match ps with
  | [] => pure ()
  | [p] => do
    p.plain
    if (← get).elements then char ','
  | _ => do
    deeper
    typeLines true ps
    softNewline
    shallower
    indent
  char '>'

def typeParameter (name : String) (isConst isIn isOut : Bool) (bound default : Piece) : Emit := do
  if isConst then text "const "
  if isIn then text "in "
  if isOut then text "out "
  text name
  bound.after (text " extends ")
  default.after (text " = ")

def typeArguments (ts : List Piece) : Emit := do
  char '<'
  list Piece.plain ts
  char '>'

/-! ## Constructors of types -/

def typeQuery (e args : Piece) : Emit := do
  text "typeof "
  e.plain
  args.plain

/-- A template of types. -/
def templateType (quasis : List Quasi) (ts : List Piece) : Emit := template quasis ts

/-- Types with a mark between them. -/
def joined (mark : String) : List Piece → Emit
  | [] => pure ()
  | [t] => t.plain
  | t :: u :: rest => do
    t.plain
    softSpace
    text mark
    softSpace
    joined mark (u :: rest)

def namedElement (label : String) (isOptional : Bool) (t : Piece) : Emit := do
  text label
  if isOptional then char '?'
  colon
  t.plain

def conditionalType (parts : List Piece) : Emit :=
  match parts with
  | [c, e, yes, no] => do
    c.plain
    text " extends "
    e.plain
    text " ? "
    yes.plain
    text " : "
    no.plain
  | _ => pure ()

def inferType (name : String) (bound : Piece) : Emit := do
  text "infer "
  text name
  bound.after (text " extends ")

/-- Parameters and result of a function type. -/
def functionType (tps this ps result : Piece) : Emit := do
  tps.plain
  parameters this ps
  softSpace
  text "=>"
  softSpace
  result.plain

def constructorType (isAbstract : Bool) (tps ps result : Piece) : Emit := do
  if isAbstract then text "abstract "
  text "new "
  functionType tps .absent ps result

/-- The sign before a mark of a mapped type. -/
def mappedSign : MappedMark → Emit
  | .plus => char '+'
  | .minus => char '-'
  | _ => pure ()

/-- A mapped type; a space stands after the bracket whether or not a type follows. -/
def mappedType (name : String) (isOptional readonly : MappedMark) (bound nameType t : Piece) :
    Emit := do
  char '{'
  softSpace
  if readonly != .none then
    mappedSign readonly
    text "readonly "
  char '['
  text name
  text " in "
  bound.plain
  nameType.after (text " as ")
  char ']'
  if isOptional != .none then
    mappedSign isOptional
    char '?'
  softSpace
  t.after colon
  softSpace
  char '}'

def indexedType (t i : Piece) : Emit := do
  t.plain
  char '['
  i.plain
  char ']'

def importType (arg options qualifier args : Piece) : Emit := do
  text "import("
  arg.plain
  options.after (text ", ")
  char ')'
  qualifier.after (char '.')
  args.plain

def typePredicate (name : String) (asserts : Bool) (t : Piece) : Emit := do
  if asserts then text "asserts "
  text name
  t.after (text " is ")

/-! ## Members -/

/-- The members of an interface or type literal, each on a line of its own. -/
def typeMembers (ms : List Piece) (spot : Spot) : Emit :=
  braces ms.isEmpty <| ms.forM fun m => do
    commentsAt m.start
    indent
    m.emit spot
    semicolon
    softNewline

/-- The key of a member. A number that is not computed may be printed as it was written. -/
def memberKey (k : Piece) (computed : Bool) (spot : Spot) : Emit :=
  match k.form with
  | .number _ _ =>
    if computed then key k true else k.emit { spot with strength := .comma }
  | _ => key k computed

def propertySignature (computed isOptional readonly : Bool) (k t : Piece) (spot : Spot) :
    Emit := do
  if readonly then text "readonly "
  memberKey k computed spot
  if isOptional then char '?'
  t.after colon

/-- Parameters and result of a signature. -/
def signature (tps this ps result : Piece) : Emit := do
  tps.plain
  parameters this ps
  result.after colon

def methodSignature (kind : MethodKind) (computed isOptional : Bool) (parts : List Piece)
    (spot : Spot) : Emit :=
  match parts with
  | [k, tps, this, ps, result] => do
    match kind with
    | .get => text "get "
    | .set => text "set "
    | _ => pure ()
    memberKey k computed spot
    if isOptional then char '?'
    signature tps this ps result
  | _ => pure ()

def constructSignature (tps ps result : Piece) : Emit := do
  text "new "
  signature tps .absent ps result

def indexSignature (name : String) (readonly : Bool) (index t : Piece) : Emit := do
  if readonly then text "readonly "
  char '['
  text name
  colon
  index.plain
  char ']'
  t.after colon

end Print

end Splice
