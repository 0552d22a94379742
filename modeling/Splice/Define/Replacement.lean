import Splice.Config.Value
import Splice.Define.Expression
import Splice.Environment

/-!
# Replacements

A configured value is resolved through at most one environment variable, classified, and built into
an expression for each place where it is needed.
-/
namespace Splice

/-- What a value turns out to be. -/
inductive Replacement where
  | boolean (value : Bool)
  | number (value : Double)
  /-- A string with the given content. -/
  | string (value : String)
  /-- Source text of an expression. -/
  | expression (text : String)
deriving DecidableEq, Repr, Inhabited

/-- The outcome of resolving a value. -/
inductive Resolution where
  | resolved (r : Replacement)
  /-- The value refers to a variable that is not set. -/
  | unset (name : String)
deriving DecidableEq, Repr, Inhabited

/-- The text begins and ends with the same quote. -/
def isQuoted (cs : List Char) : Bool :=
  match cs with
  | q :: rest =>
    (q.toNat == 0x22 || q.toNat == 0x27 || q.toNat == 0x60) && rest.getLast? == some q
  | [] => false

/-- The text without its first and last character. -/
def unquoted (text : String) : String := String.ofList (text.toList.drop 1).dropLast

namespace Replacement

/-- Classifies text in quotes: a string or a plain template stands for its content, any other
expression for itself, and text that cannot be read is taken literally. -/
def classifyQuoted (text : String) : Replacement :=
  match parseExpression .plain text with
  | some e =>
    match e.form with
    | .string v _ => .string v
    | .template [q] =>
      match q.cooked with
      | some v => .string v
      | none => .string (unquoted text)
    | _ => .expression text
  | none => .string (unquoted text)

/-- Classifies raw text. -/
def classify (text : String) : Replacement :=
  if text = "true" then .boolean true
  else if text = "false" then .boolean false
  else if isQuoted text.toList then classifyQuoted text
  else .expression text

/-- Resolves a value. The content of a variable is classified but not resolved again. -/
def resolve (env : Environment) : Value → Resolution
  | .bool b => .resolved (.boolean b)
  | .number d => .resolved (.number d)
  | .text s =>
    match Environment.reference? s with
    | some name =>
      match env.get? name with
      | some content => .resolved (classify content)
      | none => .unset name
    | none => .resolved (classify s)

/-- The expression for a number; a negative one is a negation. -/
def numberNode (d : Double) (span : Span) : Node :=
  if d.isNaN then .mk (.identifier "NaN") .value span []
  else
    let magnitude : Node :=
      if d.isInfinite then .mk (.identifier "Infinity") .value span []
      else .mk (.number d.abs "") .value span []
    if d.isNegative then .mk (.unary .minus) .value span [magnitude] else magnitude

/-- Builds the expression for a place. Its whole tree has the span of what it replaces. -/
def build (language : Language) (span : Span) : Replacement → Option Node
  | boolean b => some (.mk (.boolean b) .value span [])
  | number d => some (numberNode d span)
  | string s => some (.mk (.string s false) .value span [])
  | expression text => (parseExpression language text).map (Node.respan span)

/-- The name of the kind of replacement. -/
def kind : Replacement → String
  | boolean _ => "boolean"
  | number _ => "number"
  | string _ => "string"
  | expression _ => "expression"

end Replacement

end Splice
