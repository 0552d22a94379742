/-!
# Arguments

What the commands are asked to do.
-/
namespace Splice

/-- Transform files. -/
structure TransformArgs where
  inputs : List String := []
  config : Option String := none
  definitions : List String := []
  /-- Where the only output goes. -/
  output : Option String := none
  /-- Where all outputs go, under the names of their inputs. -/
  outDir : Option String := none
  minify : Bool := false
  stats : Bool := false
deriving DecidableEq, Repr, Inhabited

/-- Show what the keys stand for. -/
structure InspectArgs where
  config : Option String := none
  definitions : List String := []
  format : String := "text"
deriving DecidableEq, Repr, Inhabited

end Splice
