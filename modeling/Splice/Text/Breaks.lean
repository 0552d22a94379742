import Splice.Text.Visible

/-!
# Line breaks

Where a line of text may be broken: after spaces and at some punctuation, by the usual rules for
pairs of characters.
-/
namespace Splice

namespace Breaks

/-- What matters of a character for breaking lines. -/
inductive Kind where
  | space | letter | digit | opening | closing | closingRound | exclamation | separator | slash
  | quote | hyphen | unit | percent | breakAfter | ideograph | glue
deriving DecidableEq, Repr, Inhabited

/-- Characters that fill two columns. -/
def isWide (c : Char) : Bool :=
  inTable [0x1100, 0x1160, 0x2e80, 0x303f, 0x3041, 0xa4d0, 0xac00, 0xd7a4, 0xf900, 0xfb00, 0xfe30,
    0xfe70, 0xff00, 0xff61, 0xffe0, 0xffe7, 0x1f300, 0x1f650, 0x1f680, 0x1f700, 0x1f900, 0x1fa00,
    0x20000, 0x40000] c.toNat

/-- How many columns a character fills. -/
def columns (c : Char) : Nat :=
  if c.toNat < 0x20 || c.toNat == 0x7f || Visible.isExtend c then 0
  else if isWide c then 2
  else 1

def kind (c : Char) : Kind :=
  match c with
  | ' ' => .space
  | '(' | '[' | '\x7b' => .opening
  | ')' | ']' => .closingRound
  | '\x7d' => .closing
  | '!' | '?' => .exclamation
  | ',' | '.' | ':' | ';' => .separator
  | '/' => .slash
  | '\x22' | '\x27' => .quote
  | '-' => .hyphen
  | '$' | '+' | '\\' => .unit
  | '%' => .percent
  | '|' | '\t' => .breakAfter
  | _ =>
    if c.isDigit then .digit
    else if c.toNat == 0xa0 then .glue
    else if isWide c then .ideograph
    else .letter

/-- Kinds that stay with what is before them, even after spaces. -/
def Kind.clings : Kind → Bool
  | .closing | .closingRound | .exclamation | .separator | .slash => true
  | _ => false

def Kind.isUnit : Kind → Bool
  | .unit | .percent => true
  | _ => false

def Kind.isAlphanumeric : Kind → Bool
  | .letter | .digit => true
  | _ => false

/-- Two characters that stand side by side hold together. -/
def holds (a b : Kind) : Bool :=
  b.clings || a == .opening || a == .quote || b == .quote || a == .glue || b == .glue ||
  b == .hyphen || b == .breakAfter ||
  (a.isAlphanumeric && (b.isAlphanumeric || b.isUnit || b == .opening)) ||
  (a.isUnit && (b.isAlphanumeric || b == .opening)) ||
  (a == .unit && b == .ideograph) || (a == .ideograph && b == .percent) ||
  ((a == .closing || a == .closingRound) && b.isUnit) ||
  (a == .closingRound && b.isAlphanumeric) ||
  ((a == .hyphen || a == .slash) && b == .digit) ||
  (a == .separator && b.isAlphanumeric)

/-- A line may be broken between two characters with spaces between them or not. -/
def allowed (a b : Kind) (spaced : Bool) : Bool :=
  if spaced then !(b.clings || a == .opening || (a == .quote && b == .opening)) else !holds a b

/-- The pieces of a line between places where it may be broken. Hyphens are left alone here.
`word` is the piece so far, its latest character first, and `last` the latest kind in it that is no
space. -/
def piecesFrom (word : List Char) (last : Kind) (spaced : Bool) : List Char → List (List Char)
  | [] => if word.isEmpty then [] else [word.reverse]
  | c :: cs =>
    let k := kind c
    if k == .space then piecesFrom (c :: word) last true cs
    else if Visible.isExtend c then piecesFrom (c :: word) last spaced cs
    else if !word.isEmpty && allowed last k spaced && (spaced || last != .hyphen) then
      word.reverse :: piecesFrom [c] k false cs
    else piecesFrom (c :: word) k false cs

def pieces (line : List Char) : List (List Char) := piecesFrom [] .opening false line

end Breaks

end Splice
