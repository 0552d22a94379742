import Splice.Define.Visitor
import Splice.Error

/-!
# Transforming source text

A text is read, substituted and printed again.
-/
namespace Splice

/-- A transformed text. -/
structure Output where
  code : String
  stats : Stats
deriving DecidableEq, Repr, Inhabited

/-- Transforms a text. The path names it in errors and decides on its language. -/
def transform (t : Table) (env : Environment) (path source : String) (minify : Bool) :
    Except Error Output :=
  let language := Language.ofPath path
  match parse language source with
  | .error problems => .error (.parse path problems)
  | .ok p =>
    let pass : Pass := { table := t, environment := env, language }
    let (tree, stats) := pass.visitProgram p.tree
    .ok ⟨tree.print p.comments minify, stats⟩

end Splice
