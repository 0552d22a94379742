import Splice.Node.Basic

/-!
# Shapes

A coarse kind of an expression. A table that has no key of some shape is not asked about expressions
of it. Expressions that print alike mostly have the same shape, but not always: a number that is too
large prints as the name `Infinity`.
-/
namespace Splice

inductive Shape where
  | identifier | member | call | unary | literal | other
deriving DecidableEq, Repr, Inhabited

/-- All shapes in order. -/
def Shape.all : List Shape := [identifier, member, call, unary, literal, other]

/-- The shape of a construct that is not in parentheses. -/
def Form.shape : Form → Shape
  | .identifier _ => .identifier
  | .member _ _ | .index _ | .privateMember _ _ => .member
  | .call _ _ => .call
  | .unary _ => .unary
  | .boolean _ | .nullValue | .number _ _ | .bigint _ | .regexp _ _ | .string _ _ | .template _ =>
    .literal
  | _ => .other

/-- The shape of an expression; parentheses do not count. -/
def Node.shape (n : Node) : Shape := n.withoutParens.form.shape

end Splice
