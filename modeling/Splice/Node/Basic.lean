import Splice.Node.Reach
import Splice.Node.Span

/-!
# Syntax trees

A node has a form, a place, spans and children. The place says whether the node is an expression
that is read for its value, which is what substitution looks at; everything else, such as a name
that is bound, a target that is assigned to or the last link of an optional chain, is a mere part
of its parent.
-/
namespace Splice

/-- How a node stands in its parent. -/
inductive Place where
  /-- An expression read for its value. -/
  | value
  /-- Any other part. -/
  | part
deriving DecidableEq, Repr, Inhabited

inductive Node where
  | mk (form : Form) (place : Place) (spans : Spans) (children : List Node)
deriving Inhabited

namespace Node

def form : Node → Form
  | mk f _ _ _ => f

def place : Node → Place
  | mk _ p _ _ => p

def spans : Node → Spans
  | mk _ _ s _ => s

/-- The stretch of text that the node was read from. -/
def span (n : Node) : Span := n.spans.own

def children : Node → List Node
  | mk _ _ _ cs => cs

def start (n : Node) : Nat := n.span.start

def stop (n : Node) : Nat := n.span.stop

def withForm (f : Form) : Node → Node
  | mk _ p s cs => mk f p s cs

def withPlace (p : Place) : Node → Node
  | mk f _ s cs => mk f p s cs

def withChildren (cs : List Node) : Node → Node
  | mk f p s _ => mk f p s cs

/-- The part that is not there. -/
def absent : Node := mk .absent .part ⟨⟨0, 0⟩, []⟩ []

def isAbsent (n : Node) : Bool :=
  match n.form with
  | .absent => true
  | _ => false

def isPresent (n : Node) : Bool := !n.isAbsent

/-- The child with the given number, absent when there is none. -/
def child (n : Node) (i : Nat) : Node := n.children.getD i absent

/-- A sequence of parts as one child. -/
def group (parts : List Node) : Node := mk .group .part ⟨⟨0, 0⟩, []⟩ parts

mutual

/-- Looks through parentheses. -/
def withoutParens : Node → Node
  | mk form place spans cs =>
    match form with
    | .parens => withoutParensFirst (mk form place spans cs) cs
    | _ => mk form place spans cs

/-- The first child without its parentheses. -/
def withoutParensFirst (default : Node) : List Node → Node
  | [] => default
  | c :: _ => withoutParens c

end

mutual

/-- Looks through parentheses and type annotations. -/
def innermost : Node → Node
  | mk form place spans cs =>
    match form with
    | .parens | .asType | .satisfies | .nonNull | .instantiation =>
      innermostAt 0 (mk form place spans cs) cs
    | .assertion => innermostAt 1 (mk form place spans cs) cs
    | _ => mk form place spans cs

/-- The innermost expression of the child with the given number. -/
def innermostAt : Nat → (default : Node) → List Node → Node
  | _, default, [] => default
  | 0, _, c :: _ => innermost c
  | n + 1, default, _ :: cs => innermostAt n default cs

end

mutual

/-- Moves a tree to a new place: all spans that the walk over it reaches become the same one. -/
def respan (s : Span) : Node → Node
  | mk f p spans cs => mk f p (spans.moveTo s f.reachedPieces) (respanParts s f.arity cs)

/-- The parts that the walk reaches, which are all of them unless their number is fixed. -/
def respanParts (s : Span) : (reached : Option Nat) → List Node → List Node
  | _, [] => []
  | some 0, cs => cs
  | reached, c :: cs => respan s c :: respanParts s (reached.map Nat.pred) cs

end

mutual

/-- Whether the tree has a node of which `hit` holds, not looking below nodes of which `stop`
holds. -/
def anyOutside (hit halt : Form → Bool) : Node → Bool
  | mk f _ _ cs => if halt f then false else hit f || anyOutsideList hit halt cs

def anyOutsideList (hit halt : Form → Bool) : List Node → Bool
  | [] => false
  | c :: cs => anyOutside hit halt c || anyOutsideList hit halt cs

end

end Node

end Splice
