import Splice.Text.Blank

/-!
# Environment variables

Values of the form `process.env.NAME` stand for the content of a variable. The variables are passed
in, so the same input always gives the same output.
-/
namespace Splice

/-- The variables that are set, with their contents. -/
structure Environment where
  vars : List (String × String) := []
deriving DecidableEq, Repr, Inhabited

namespace Environment

def get? (env : Environment) (name : String) : Option String := env.vars.lookup name

/-- Unsets a variable. -/
def erase (env : Environment) (name : String) : Environment :=
  ⟨env.vars.filter fun v => v.1 != name⟩

/-- Sets a variable. -/
def insert (env : Environment) (name content : String) : Environment :=
  ⟨(name, content) :: (env.erase name).vars⟩

/-- Sets variables one after the other; the last of several with one name counts. -/
def ofList (vars : List (String × String)) : Environment :=
  vars.foldl (fun env v => env.insert v.1 v.2) {}

/-- What a reference to a variable begins with. -/
def namespaceText : List Char := "process.env.".toList

/-- What a variable's name may begin with. -/
def isNameStart (c : Char) : Bool := c.isAlpha || c == '_' || c == '$'

def isNamePart (c : Char) : Bool := isNameStart c || c.isDigit

/-- A letter, underscore or dollar sign, then these and digits. -/
def isVariableName : List Char → Bool
  | [] => false
  | c :: cs => isNameStart c && cs.all isNamePart

/-- The text after the given beginning. -/
def afterText? : List Char → List Char → Option (List Char)
  | [], cs => some cs
  | p :: ps, c :: cs => if p = c then afterText? ps cs else none
  | _ :: _, [] => none

/-- The variable that a text refers to, if it is such a reference; white space around it does not
count. -/
def reference? (text : String) : Option String :=
  match afterText? namespaceText (Blank.trim text.toList) with
  | some name => if isVariableName name then some (String.ofList name) else none
  | none => none

end Environment

end Splice
