import Splice.Decimal.Style
import Splice.Json.Text

/-!
# Writing values

Values are written in one line without blanks, or with every member and element on a line of its
own.
-/
namespace Splice

inductive Json where
  | null
  | bool (value : Bool)
  | number (value : Double)
  | text (value : String)
  | list (elements : List Json)
  | object (members : List (String × Json))
deriving Inhabited

namespace Json

/-- A value that is no list and no object. -/
def scalarText : Json → List Char
  | null => "null".toList
  | bool b => (if b then "true" else "false").toList
  | number d => d.json.toList
  | text s => writeText s.toList
  | _ => []

/-! ## In one line -/

mutual

/-- The value in one line. -/
def compact : Json → List Char
  | list es => '[' :: compactList es ++ [']']
  | object ms => '\x7b' :: compactMembers ms ++ ['\x7d']
  | v => v.scalarText

def compactList : List Json → List Char
  | [] => []
  | [e] => e.compact
  | e :: f :: es => e.compact ++ ',' :: compactList (f :: es)

def compactMembers : List (String × Json) → List Char
  | [] => []
  | [(k, v)] => writeText k.toList ++ ':' :: v.compact
  | (k, v) :: m :: ms => writeText k.toList ++ ':' :: v.compact ++ ',' :: compactMembers (m :: ms)

end

/-! ## On lines -/

/-- The start of a line at a depth. -/
def line (depth : Nat) : List Char := '\n' :: List.replicate (2 * depth) ' '

mutual

/-- The value on lines of its own, indented by two blanks for each level. -/
def pretty (depth : Nat) : Json → List Char
  | list [] => ['[', ']']
  | list es => '[' :: prettyList (depth + 1) es ++ line depth ++ [']']
  | object [] => ['\x7b', '\x7d']
  | object ms => '\x7b' :: prettyMembers (depth + 1) ms ++ line depth ++ ['\x7d']
  | v => v.scalarText

def prettyList (depth : Nat) : List Json → List Char
  | [] => []
  | [e] => line depth ++ e.pretty depth
  | e :: f :: es => line depth ++ e.pretty depth ++ ',' :: prettyList depth (f :: es)

def prettyMembers (depth : Nat) : List (String × Json) → List Char
  | [] => []
  | [(k, v)] => line depth ++ writeText k.toList ++ ": ".toList ++ v.pretty depth
  | (k, v) :: m :: ms =>
    line depth ++ writeText k.toList ++ ": ".toList ++ v.pretty depth ++
      ',' :: prettyMembers depth (m :: ms)

end

end Json

end Splice
