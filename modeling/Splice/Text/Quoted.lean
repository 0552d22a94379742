/-!
# Quoted text

Text between quotes, with the characters that may not stand there written as escapes. Written code
can be part of an HTML page, so the closing tag of a script is broken up wherever it would appear.
-/
namespace Splice

namespace Quoted

/-- `cs` begins with the closing tag of a script, in any case. -/
def closesScript : List Char → Bool
  | '<' :: '/' :: r => (r.take 6).map Char.toLower == ['s', 'c', 'r', 'i', 'p', 't']
  | _ => false

/-- Breaks up the closing tags of scripts. -/
def breakScript : List Char → List Char
  | [] => []
  | c :: r => if closesScript (c :: r) then c :: '\\' :: breakScript r else c :: breakScript r

/-- The quotes around a text. -/
inductive Quote where
  | double | single | backtick
deriving DecidableEq, Repr, Inhabited

def Quote.char : Quote → Char
  | double => '\x22' | single => '\x27' | backtick => '\x60'

/-- How a character is written between the given quotes, `next` being the text after it. -/
def escape (q : Quote) (c : Char) (next : List Char) : List Char :=
  match c.toNat with
  | 0x00 => if next.head?.any Char.isDigit then ['\\', 'x', '0', '0'] else ['\\', '0']
  | 0x07 => ['\\', 'x', '0', '7']
  | 0x08 => ['\\', 'b']
  | 0x0b => ['\\', 'v']
  | 0x0c => ['\\', 'f']
  | 0x0a => if q = .backtick then [c] else ['\\', 'n']
  | 0x0d => ['\\', 'r']
  | 0x1b => ['\\', 'x', '1', 'B']
  | 0x5c => ['\\', '\\']
  | 0x2028 => ['\\', 'u', '2', '0', '2', '8']
  | 0x2029 => ['\\', 'u', '2', '0', '2', '9']
  | 0xa0 => ['\\', 'x', 'A', '0']
  | _ =>
    if c = q.char then ['\\', c]
    else if closesScript (c :: next) then [c, '\\']
    else if q = .backtick ∧ c = '$' ∧ next.head? = some '{' then ['\\', c]
    else [c]

/-- The characters of a text, written between the given quotes. -/
def escapeAll (q : Quote) : List Char → List Char
  | [] => []
  | c :: r => escape q c r ++ escapeAll q r

/-- Like `escapeAll`, for a text in which U+FFFD and four hexadecimal digits stand for a code unit:
halves of surrogate pairs are written as escapes. -/
def escapeUnits (q : Quote) : List Char → List Char
  | [] => []
  | c :: a :: b :: d :: e :: r =>
    if c.toNat = 0xFFFD then
      (if [a, b, d, e] = ['f', 'f', 'f', 'd'] then [c] else ['\\', 'u', a, b, d, e]) ++
        escapeUnits q r
    else escape q c (a :: b :: d :: e :: r) ++ escapeUnits q (a :: b :: d :: e :: r)
  | c :: r => escape q c r ++ escapeUnits q r

/-- A text in quotes. -/
def write (q : Quote) (surrogates : Bool) (text : List Char) : List Char :=
  q.char :: (if surrogates then escapeUnits q text else escapeAll q text) ++ [q.char]

/-- How many escapes each kind of quotes costs. -/
structure Cost where
  double : Int := 0
  single : Int := 0
  backtick : Int := 0

def cost : List Char → Cost
  | [] => {}
  | c :: r =>
    let k := cost r
    match c.toNat with
    | 0x0a => { k with backtick := k.backtick - 1 }
    | 0x22 => { k with double := k.double + 1 }
    | 0x27 => { k with single := k.single + 1 }
    | 0x60 => { k with backtick := k.backtick + 1 }
    | 0x24 => if r.head? = some '{' then { k with backtick := k.backtick + 1 } else k
    | _ => k

/-- The cheapest quotes; of equals, backticks before double quotes before single ones. -/
def cheapest (backticks : Bool) (text : List Char) : Quote :=
  let k := cost text
  let plain : Quote := if k.double ≤ k.single then .double else .single
  if backticks && k.backtick ≤ k.double && k.backtick ≤ k.single then .backtick else plain

end Quoted

end Splice
