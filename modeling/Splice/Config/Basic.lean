import Splice.Config.Entries
import Splice.Text.Blank

/-!
# Configurations

A configuration says which expressions are replaced by what. It can be extended by definitions of
the form `KEY=VALUE`.
-/
namespace Splice

structure Config where
  replace : Entries := {}
deriving DecidableEq, Repr, Inhabited

namespace Config

def insert (c : Config) (key : String) (v : Value) : Config := ⟨c.replace.insert key v⟩

def isEmpty (c : Config) : Bool := c.replace.isEmpty

end Config

/-- The text before and after the first equals sign. -/
def splitDefinition : List Char → Option (List Char × List Char)
  | [] => none
  | c :: cs =>
    if c = '=' then some ([], cs)
    else (splitDefinition cs).map fun (k, v) => (c :: k, v)

/-- Reads a definition. White space around the key does not count; the value is taken as it is, and
as text. -/
def parseDefinition? (arg : String) : Option (String × Value) :=
  match splitDefinition arg.toList with
  | none => none
  | some (k, v) =>
    let key := Blank.trim k
    if key.isEmpty then none else some (String.ofList key, .text (String.ofList v))

/-- Adds definitions in order; the first one that cannot be read ends this, and those before it
stay. -/
def Config.define (c : Config) : List String → Config × Option String
  | [] => (c, none)
  | arg :: rest =>
    match parseDefinition? arg with
    | some (k, v) => (c.insert k v).define rest
    | none => (c, some arg)

end Splice
