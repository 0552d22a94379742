/-!
# Operators

The operators of expressions, their spelling, and the binding strength that decides where
parentheses are needed.
-/
namespace Splice

/-- Binding strengths, from the loosest to the tightest. -/
inductive Strength where
  | lowest | comma | spread | yield | assign | conditional | coalesce | or | and
  | bitOr | bitXor | bitAnd | equality | compare | shift | add | multiply | power
  | unary | update | new | call | member
deriving DecidableEq, Repr, Inhabited

namespace Strength

/-- The place of a strength in the order, counted from the loosest. -/
def rank : Strength → Nat
  | lowest => 0 | comma => 1 | spread => 2 | yield => 3 | assign => 4 | conditional => 5
  | coalesce => 6 | or => 7 | and => 8 | bitOr => 9 | bitXor => 10 | bitAnd => 11
  | equality => 12 | compare => 13 | shift => 14 | add => 15 | multiply => 16 | power => 17
  | unary => 18 | update => 19 | new => 20 | call => 21 | member => 22

/-- `a.atLeast b`: `a` binds as tightly as `b` or tighter. -/
def atLeast (a b : Strength) : Bool := decide (b.rank ≤ a.rank)

/-- Operators of these strengths group to the right. -/
def groupsRight : Strength → Bool
  | power | conditional | assign => true
  | _ => false

end Strength

inductive UnaryOp where
  | plus | minus | not | complement | typeof | void | delete
deriving DecidableEq, Repr, Inhabited

def UnaryOp.text : UnaryOp → String
  | plus => "+" | minus => "-" | not => "!" | complement => "~"
  | typeof => "typeof" | void => "void" | delete => "delete"

/-- The operators spelled as a word. -/
def UnaryOp.isWord : UnaryOp → Bool
  | typeof | void | delete => true
  | _ => false

inductive UpdateOp where
  | increment | decrement
deriving DecidableEq, Repr, Inhabited

def UpdateOp.text : UpdateOp → String
  | increment => "++" | decrement => "--"

inductive BinaryOp where
  | eq | ne | strictEq | strictNe | lt | le | gt | ge | shiftLeft | shiftRight | shiftRightZero
  | add | sub | mul | div | rem | pow | bitOr | bitXor | bitAnd | isIn | instanceof
deriving DecidableEq, Repr, Inhabited

namespace BinaryOp

def text : BinaryOp → String
  | eq => "==" | ne => "!=" | strictEq => "===" | strictNe => "!==" | lt => "<" | le => "<="
  | gt => ">" | ge => ">=" | shiftLeft => "<<" | shiftRight => ">>" | shiftRightZero => ">>>"
  | add => "+" | sub => "-" | mul => "*" | div => "/" | rem => "%" | pow => "**"
  | bitOr => "|" | bitXor => "^" | bitAnd => "&" | isIn => "in" | instanceof => "instanceof"

/-- The operators spelled as a word. -/
def isWord : BinaryOp → Bool
  | isIn | instanceof => true
  | _ => false

def strength : BinaryOp → Strength
  | eq | ne | strictEq | strictNe => .equality
  | lt | le | gt | ge | isIn | instanceof => .compare
  | shiftLeft | shiftRight | shiftRightZero => .shift
  | add | sub => .add
  | mul | div | rem => .multiply
  | pow => .power
  | bitOr => .bitOr | bitXor => .bitXor | bitAnd => .bitAnd

/-- The strength one step below the operator's own. -/
def below : BinaryOp → Strength
  | eq | ne | strictEq | strictNe => .bitAnd
  | lt | le | gt | ge | isIn | instanceof => .equality
  | shiftLeft | shiftRight | shiftRightZero => .compare
  | add | sub => .shift
  | mul | div | rem => .add
  | pow => .multiply
  | bitOr => .and | bitXor => .bitOr | bitAnd => .bitXor

end BinaryOp

inductive LogicalOp where
  | or | and | coalesce
deriving DecidableEq, Repr, Inhabited

namespace LogicalOp

def text : LogicalOp → String
  | or => "||" | and => "&&" | coalesce => "??"

def strength : LogicalOp → Strength
  | or => .or | and => .and | coalesce => .coalesce

/-- The strength one step below the operator's own. -/
def below : LogicalOp → Strength
  | or => .coalesce | and => .or | coalesce => .conditional

end LogicalOp

/-- An assignment, plain or combined with an operation. -/
inductive AssignOp where
  | plain | binary (op : BinaryOp) | logical (op : LogicalOp)
deriving DecidableEq, Repr, Inhabited

def AssignOp.text : AssignOp → String
  | plain => "="
  | binary op => op.text ++ "="
  | logical op => op.text ++ "="

end Splice
