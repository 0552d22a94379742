import Splice.Define.Shape
import Splice.Grammar.Program
import Splice.Print.Node

/-!
# Expressions on their own

Keys and values are texts of single expressions. They are read and printed by the same grammar and
printer as whole programs, so that different spellings of an expression are one key.
-/
namespace Splice

/-- Awaiting and yielding. -/
def Form.suspends : Form → Bool
  | .await => true
  | .yield _ => true
  | _ => false

/-- Functions have suspensions of their own. -/
def Form.isFunction : Form → Bool
  | .function _ => true
  | .arrow _ => true
  | _ => false

/-- The expression awaits or yields in the function around it. -/
def Node.suspends (n : Node) : Bool := n.anyOutside Form.suspends Form.isFunction

/-- The expression that makes up a program in parentheses. -/
def Node.soleExpression? (program : Node) : Option Node :=
  match program.children with
  | [s] =>
    match s.form, s.children with
    | .expressionStatement, [e] =>
      match e.form, e.children with
      | .parens, [inner] => some inner
      | _, _ => none
    | _, _ => none
  | _ => none

/-- The text in parentheses; a line end keeps a comment at its end from hiding the last one. -/
def inParens (text : String) : String := "(" ++ text ++ "\n)"

/-- Reads a text that is exactly one expression. An expression that suspends the function around it
is refused, because where it will stand this may not be allowed. -/
def parseExpression (language : Language) (text : String) : Option Node :=
  if (Blank.trim text.toList).isEmpty then none
  else
    match parse language (inParens text) with
    | .error _ => none
    | .ok p =>
      match p.tree.soleExpression? with
      | some e => if e.suspends then none else some e
      | none => none

/-- The printed form of a key, and its shape. Keys are read as typed source, so that they can hold
type assertions. -/
def normalizeKey (key : String) : Option (String × Shape) :=
  (parseExpression .typedModule key).map fun e => (e.render, e.shape)

end Splice
