import Splice.Print.Expression

/-!
# Printing elements
-/
namespace Splice

namespace Print

open Emit

/-- The quotes of an attribute text, which has no escapes. -/
def attributeText (value : String) : Emit := do
  let q := if value.toList.contains '\x22' then '\x27' else '\x22'
  char q
  text value
  char q

def elementAttribute (name v : Piece) : Emit := do
  name.plain
  v.after (char '=')

/-- An expression in braces. -/
def container (e : Piece) : Emit := do
  char '{'
  e.plain
  char '}'

def spreadContainer (e : Piece) : Emit := do
  text "\x7b..."
  e.item
  char '}'

def elementAttributes (as : List Piece) : Emit := as.forM fun a => do
  match a.form with
  | .attributeSpread => softSpace
  | _ => space
  a.plain

def element (parts : List Piece) : Emit :=
  match parts with
  | [name, args, attributes, contents, close] => do
    char '<'
    name.plain
    args.plain
    elementAttributes attributes.parts
    if close.isAbsent then
      softSpace
      char '/'
    char '>'
    contents.parts.forM Piece.plain
    if close.isPresent then
      text "</"
      close.plain
      char '>'
  | _ => pure ()

def fragment (contents : List Piece) : Emit := do
  text "<>"
  contents.forM Piece.plain
  text "</>"

end Print

end Splice
