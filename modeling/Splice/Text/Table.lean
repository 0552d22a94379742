/-!
# Character tables

A set of characters is given by its sorted boundaries: the set begins at the first, ends before the
second, begins again at the third, and so on.
-/
namespace Splice

/-- Whether a code point lies in the set with the given sorted boundaries. -/
def inTable (bounds : List Nat) (code : Nat) : Bool :=
  match bounds with
  | [] => false
  | [low] => decide (low ≤ code)
  | low :: high :: rest => if code < low then false else code < high || inTable rest code

end Splice
