import Splice.Grammar.Name

/-!
# Assignment targets

What stands before an assignment is first read as an expression and then turned into a target:
literals of arrays and objects become patterns, names and member accesses become parts that are
assigned to. Anything else cannot be assigned to.
-/
namespace Splice

/-- Names and member accesses. -/
def Form.isReference : Form → Bool
  | .identifier _ => true
  | .member _ _ => true
  | .index _ => true
  | .privateMember _ _ => true
  | _ => false

namespace Read

variable {input : Source}

/-- A target that is no pattern. Parentheses around it are dropped. -/
def simpleTarget (n : Node) : Read Node := do
  let inner := n.withoutParens
  match inner.form with
  | .asType | .satisfies | .nonNull | .assertion =>
    if inner.innermost.form.isReference then return inner.withPlace .part
    else throw .invalidTarget
  | f => if f.isReference then return inner.withPlace .part else throw .invalidTarget

/-- What may follow the dots of a rest element: a name or a member access, with or without
parentheses and types, and in an array also another pattern. -/
def isRestArgument (inArray : Bool) (n : Node) : Bool :=
  match n.form with
  | .array | .object => inArray
  | _ =>
    let inner := n.withoutParens.form
    match inner with
    | .asType | .satisfies | .nonNull | .assertion => true
    | _ => inner.isReference

/-- Where an expression stands that is turned into a target. -/
inductive TargetRole where
  | whole
  /-- An element of a pattern; only the last one may be a rest element. -/
  | element (last : Bool)
  /-- A property of a pattern. -/
  | property (last : Bool)
deriving DecidableEq

/-- Forgets the default value of a shorthand property once it has become part of a target. -/
def takeDefault (start : Nat) : Read Unit :=
  modify fun s => { s with defaults := s.defaults.filter (· != start) }

mutual

/-- Turns an expression, or a part of a literal, into a target. -/
def cover (role : TargetRole) : Node → Read Node
  | .mk form place spans cs =>
    match form, role with
    | .array, .property _ => throw .invalidTarget
    | .object, .property _ => throw .invalidTarget
    | .array, _ => do
      let items ← coverAll false spans.own.start cs
      return .mk .arrayTarget .part spans items
    | .object, _ => do
      let items ← coverAll true spans.own.start cs
      return .mk .objectTarget .part spans items
    | .hole, _ => return .mk .hole .part spans []
    | .spread, .whole => throw .invalidTarget
    | .spread, .element false => throw .spreadNotLast
    | .spread, .property false => throw .spreadNotLast
    | .spread, role => do
      let inArray := match role with
        | .element _ => true
        | _ => false
      if !cs.all (isRestArgument inArray) then note .restArgument
      let t ← coverFirst cs
      return .mk .targetRest .part spans [t]
    | .assign _, .element _ => return .mk .targetDefault .part spans cs
    | .property traits, .property _ =>
      if traits.shorthand then
        match cs with
        | [_, v] => return .mk .targetShorthand .part spans [v.withPlace .part, Node.absent]
        | _ => throw .invalidTarget
      else do
        let (k, v) ← coverSecond cs
        return .mk (.targetProperty traits.computed) .part spans [k, v]
    | .targetShorthand, .property _ => do
      takeDefault spans.own.start
      return .mk .targetShorthand .part spans cs
    | _, _ => simpleTarget (.mk form place spans cs)

/-- Turns the parts of a literal that began at `start` into the parts of a pattern. -/
def coverAll (inObject : Bool) (start : Nat) : List Node → Read (List Node)
  | [] => return []
  | c :: cs => do
    let last := cs.isEmpty
    let t ← cover (if inObject then .property last else .element last) c
    match t.form with
    | .targetRest => if (← get).trailing.contains start then note .restTrailingComma
    | _ => pure ()
    let ts ← coverAll inObject start cs
    return t :: ts

def coverFirst : List Node → Read Node
  | [] => throw .invalidTarget
  | c :: _ => cover .whole c

/-- A key, and the target after it. -/
def coverSecond : List Node → Read (Node × Node)
  | [k, c] => return (k, ← cover (.element true) c)
  | _ => throw .invalidTarget

end

end Read

end Splice
