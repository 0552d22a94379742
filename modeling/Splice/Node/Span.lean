/-!
# Source positions

A node remembers the stretches of source text it was read from. Positions count characters from the
start of the text; `stop` is the first position after the stretch.
-/
namespace Splice

/-- A half-open stretch of source text. -/
structure Span where
  start : Nat
  stop : Nat
deriving DecidableEq, Repr, Inhabited

/-- The stretches that a node remembers: its own, and those of pieces that are no nodes, since the
form says all of them or nothing but their parts is left: names after a dot, labels, pieces of a
template, the colon before a type. -/
structure Spans where
  own : Span
  inner : List Span := []
deriving DecidableEq, Repr, Inhabited

namespace Spans

instance : Coe Span Spans := ⟨fun s => ⟨s, []⟩⟩

/-- Moves the node's own span to a new place, and as many of the others as are told. -/
def moveTo (s : Span) (reached : Nat) (spans : Spans) : Spans :=
  ⟨s, (spans.inner.take reached).map (fun _ => s) ++ spans.inner.drop reached⟩

end Spans

end Splice
