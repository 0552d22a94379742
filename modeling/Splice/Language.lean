import Splice.Files.Path

/-!
# Source languages

Which dialect a file is written in, by the extension of its name.
-/
namespace Splice

/-- The dialect of a source file. Scripts are not modules. -/
structure Language where
  typed : Bool := false
  definition : Bool := false
  elements : Bool := false
  script : Bool := false
deriving DecidableEq, Repr, Inhabited

namespace Language

/-- Modules without types. -/
def plain : Language := {}

/-- Modules with types. -/
def typedModule : Language := { typed := true }

/-- `a.d.ts` and `a.d.x.ts` hold declarations only, and so do `d.ts`, `a.d.mts` and `a.d.cts`. -/
def isDefinition (name : List Char) (ext : List Char) : Bool :=
  let parts := name.splitOn '.'
  if ext = "ts".toList then parts.length ≥ 2 && (parts.dropLast.contains ['d'])
  else parts.length ≥ 3 && parts.dropLast.getLast? == some ['d']

/-- The language of the file with the given path; unknown extensions count as plain modules. -/
def ofPath (path : String) : Language :=
  match Path.fileName? path.toList with
  | none => plain
  | some name =>
    match Path.extension? name with
    | none => plain
    | some ext =>
      match String.ofList ext with
      | "cjs" => { script := true }
      | "jsx" => { elements := true }
      | "ts" => { typed := true, definition := isDefinition name ext }
      | "mts" => { typed := true, definition := isDefinition name ext }
      | "cts" => { typed := true, script := true, definition := isDefinition name ext }
      | "tsx" => { typed := true, elements := true }
      | _ => plain

end Language

end Splice
