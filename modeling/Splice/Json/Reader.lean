import Splice.Json.Fault

/-!
# JSON readers

A reader takes a part from the start of a text. The readers here are the small ones: blanks, single
characters, words.
-/
namespace Splice

namespace Json

/-- Reads from the start of a text and leaves the rest. -/
abbrev Reader (α : Type) := List Char → Except Fault (α × List Char)

namespace Reader

/-- Gives up, with what is left and how far ahead of it was looked. -/
def fail {α : Type} (cause : Cause) (rest : List Char) (ahead : Nat := 0) :
    Except Fault (α × List Char) :=
  .error { cause, rest, ahead }

def isBlank (c : Char) : Bool := c == ' ' || c == '\n' || c == '\t' || c == '\r'

def skipBlanks (s : List Char) : List Char := s.dropWhile isBlank

/-- The rest of a word whose first letter has been read. -/
def word : List Char → List Char → Except Fault (Unit × List Char)
  | [], s => .ok ((), s)
  | _ :: _, [] => fail .endInValue []
  | w :: ws, c :: s => if w = c then word ws s else fail .expectedWord (c :: s) 1

/-- The colon between a key and its value. -/
def colon : Reader Unit := fun s =>
  match skipBlanks s with
  | ':' :: r => .ok ((), r)
  | [] => fail .endInObject []
  | r => fail .expectedColon r 1

/-- Refuses what was just read in an object. The fault is placed after the end of the object if that
follows, and before whatever else follows. -/
def misfit {α : Type} (cause : Cause) : Reader α := fun s =>
  match skipBlanks s with
  | '\x7d' :: r => fail cause r
  | r => fail cause r

end Reader

end Json

end Splice
