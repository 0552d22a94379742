import Splice.Decimal.Style

/-!
# Configured values

What a key is configured to be replaced by: a boolean, a number, or text that is classified later.
-/
namespace Splice

inductive Value where
  | bool (value : Bool)
  | number (value : Double)
  | text (value : String)
deriving DecidableEq, Repr, Inhabited

/-- How a value is shown to people. -/
def Value.display : Value → String
  | bool b => if b then "true" else "false"
  | number d => d.plain
  | text s => s

end Splice
