import Splice.Environment
import Splice.Files.Basic

/-!
# Surroundings

What a command needs from the world around it. The commands are written for any surroundings, so
they run on real files and, the same way, on files that are a mere value.
-/
namespace Splice

structure Surroundings (m : Type → Type) where
  /-- The text of a file. -/
  read : (path : String) → m (Except FileError String)
  /-- Writes a file, making the directories it lies in. -/
  write : (path text : String) → m (Except FileError Unit)
  print : (text : String) → m Unit
  printError : (text : String) → m Unit
  /-- The variables that are set, at least those with the given names. -/
  environment : (names : List String) → m Environment

/-- A world that is a value. -/
structure World where
  files : Files := {}
  environment : Environment := {}
  printed : String := ""
  printedErrors : String := ""

namespace World

def write (path text : String) : StateM World (Except FileError Unit) := fun w =>
  let (files, r) := w.files.write path text
  (r, { w with files })

/-- The surroundings in a world that is a value. -/
def surroundings : Surroundings (StateM World) where
  read path := fun w => (w.files.read path, w)
  write := write
  print text := modify fun w => { w with printed := w.printed ++ text }
  printError text := modify fun w => { w with printedErrors := w.printedErrors ++ text }
  environment _ := fun w => (w.environment, w)

end World

end Splice
