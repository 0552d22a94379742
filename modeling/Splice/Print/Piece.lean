import Splice.Decimal.Style
import Splice.Print.Out

/-!
# Pieces

A piece is a tree whose every node knows how to print itself at a given spot. The rules that print a
construct get the pieces of its parts; they never call themselves, so each of them can be read alone.
-/
namespace Splice

/-- Where an expression is printed: what surrounds it binds with this strength, the operator `in` or
a call may have to be put in parentheses. -/
structure Spot where
  strength : Strength := .lowest
  noIn : Bool := false
  noCall : Bool := false
  /-- Inside a type, where numbers are printed as they were written. -/
  verbatim : Bool := false
deriving DecidableEq, Repr, Inhabited

namespace Spot

/-- Surroundings of the given strength and nothing else to mind. -/
def of (s : Strength) : Spot := { strength := s }

/-- The same spot for a part that stands apart by itself: a statement, a member, a body. What a spot
forbids reaches into the bodies of functions and classes; only where an expression begins anew, such
as an argument, an element or a test, is it forgotten. -/
def inside (spot : Spot) : Spot := { spot with strength := .lowest }

end Spot

inductive Piece where
  | mk (tree : Node) (emit : Spot → Emit) (parts : List Piece)

namespace Piece

def absent : Piece := mk .absent (fun _ => pure ()) []

instance : Inhabited Piece := ⟨absent⟩

def tree : Piece → Node
  | mk t _ _ => t

/-- Prints the piece at a spot. -/
def emit : Piece → Spot → Emit
  | mk _ e _ => e

def parts : Piece → List Piece
  | mk _ _ ps => ps

def form (p : Piece) : Form := p.tree.form

def start (p : Piece) : Nat := p.tree.start

def part (p : Piece) (i : Nat) : Piece := p.parts.getD i absent

def isPresent (p : Piece) : Bool := p.tree.isPresent

def isAbsent (p : Piece) : Bool := p.tree.isAbsent

/-- Prints the piece where nothing around it matters. -/
def plain (p : Piece) : Emit := p.emit {}

/-- Prints an expression that a comma would end. -/
def item (p : Piece) : Emit := p.emit (.of .comma)

/-- Prints something before a part that is there, and the part. -/
def after (p : Piece) (before : Emit) : Emit := do
  if p.isPresent then
    before
    p.plain

end Piece

namespace Emit

/-- Prints a text in quotes. Only when minifying the quotes are chosen. -/
def quoted (value : String) (surrogates backticks : Bool) : Emit := do
  let cs := value.toList
  let q := if (← get).minify then Quoted.cheapest backticks cs else .double
  chars (Quoted.write q surrogates cs)

/-- Prints a number that is not negative. A dot after plain digits would be taken for a part of
them. -/
def magnitude (d : Double) : Emit := do
  let s := d.literal.toList
  chars s
  if s.all Char.isDigit then modify fun o => { o with numberEnd := o.size }

/-- Prints a number. -/
def number (d : Double) (spot : Spot) : Emit := do
  let tight := spot.strength.atLeast .unary
  if d.isNaN then word "NaN"
  else if d.isInfinite then
    let minify := (← get).minify
    wrap ((minify && spot.strength.atLeast .multiply) || (d.isNegative && tight)) do
      if d.isNegative then
        spaceBeforeOperator (.unary .minus)
        char '-'
      else spaceBeforeWord
      text (if minify then "1/0" else "Infinity")
  else if !d.isNegative then
    spaceBeforeWord
    magnitude d
  else if tight then
    text "(-"
    magnitude d.abs
    char ')'
  else
    spaceBeforeOperator (.unary .minus)
    char '-'
    magnitude d.abs

end Emit

end Splice
