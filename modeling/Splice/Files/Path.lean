/-!
# Paths

Texts that name files. Names are separated by slashes; a path that begins with a slash starts at the
root of all files, any other at the current directory.
-/
namespace Splice

namespace Path

/-- The names in a path, without empty ones and single dots. -/
def names (path : List Char) : List (List Char) :=
  (path.splitOn '/').filter fun c => c ≠ [] ∧ c ≠ ['.']

/-- The last name of a path, unless the path ends in a parent directory. -/
def fileName? (path : List Char) : Option (List Char) :=
  match (names path).getLast? with
  | some name => if name = ['.', '.'] then none else some name
  | none => none

/-- The part of a file name after its last dot; a dot at the start does not count. -/
def extension? (name : List Char) : Option (List Char) :=
  let rev := name.reverse
  let ext := rev.takeWhile (· != '.')
  match rev.dropWhile (· != '.') with
  | '.' :: stem => if stem.isEmpty then none else some ext.reverse
  | _ => none

def isAbsolute (path : List Char) : Bool := path.head? == some '/'

/-- A slash at the end asks for a directory. -/
def endsInSlash (path : List Char) : Bool := path.getLast? == some '/'

/-- The names to walk along, from the root or the current directory. An empty name stays where it
is, like a single dot. -/
def steps (path : List Char) : List String :=
  (path.splitOn '/').map fun c => if c.isEmpty then "." else String.ofList c

/-- The names of the directory that a path lies in. -/
def parentNames (path : List Char) : List String := (names path).dropLast.map String.ofList

/-- A name inside a directory. -/
def join (dir name : String) : String :=
  if dir.isEmpty || endsInSlash dir.toList then dir ++ name else dir ++ "/" ++ name

end Path

end Splice
