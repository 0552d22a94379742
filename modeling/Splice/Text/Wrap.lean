import Splice.Text.Breaks

/-!
# Wrapped text

Text in lines of a given width. The lines are as few as possible; among those, the gaps at their ends
are as small as possible in the sum of their squares, and a single short word is not left alone on
the last line if another way is not much worse.
-/
namespace Splice

namespace Wrap

/-- A part of a line that is not broken, and the blanks after it. -/
structure Fragment where
  text : List Char
  blanks : Nat := 0
deriving DecidableEq, Repr, Inhabited

def Fragment.width (f : Fragment) : Nat := f.text.foldl (fun width c => width + Breaks.columns c) 0

def Fragment.ofPiece (p : List Char) : Fragment :=
  let blanks := (p.reverse.takeWhile (· == ' ')).length
  ⟨p.take (p.length - blanks), blanks⟩

/-! ## Fragments -/

def isWordChar (c : Char) : Bool := c.isAlphanum || c.toNat ≥ 0x80

/-- Splits a word after the hyphens inside it; `before` is the part so far, its latest character
first. -/
def splitHyphens (before : List Char) : List Char → List (List Char)
  | [] => [before.reverse]
  | c :: cs =>
    let inside := c == '-' && (before.head?.any isWordChar) && (cs.head?.any isWordChar)
    if inside then (c :: before).reverse :: splitHyphens [] cs else splitHyphens (c :: before) cs

/-- Splits a word that does not fit on a line; `used` columns of the part so far are taken. -/
def splitLong (width : Nat) (before : List Char) (used : Nat) : List Char → List (List Char)
  | [] => [before.reverse]
  | c :: cs =>
    let w := Breaks.columns c
    if used > 0 && used + w > width then before.reverse :: splitLong width [c] w cs
    else splitLong width (c :: before) (used + w) cs

/-- The blanks of a fragment follow the last of its parts. -/
def withBlanks (blanks : Nat) : List (List Char) → List Fragment
  | [] => []
  | [t] => [⟨t, blanks⟩]
  | t :: u :: rest => ⟨t, 0⟩ :: withBlanks blanks (u :: rest)

def fragments (width : Nat) (line : List Char) : List Fragment :=
  let words := (Breaks.pieces line).map Fragment.ofPiece
  let parts := words.flatMap fun f => withBlanks f.blanks (splitHyphens [] f.text)
  parts.flatMap fun f =>
    if f.width > width then withBlanks f.blanks (splitLong width [] 0 f.text) else [f]

/-! ## Lines -/

/-- Lines for some fragments, and what they cost. -/
structure Layout where
  cost : Nat := 0
  lines : List (List Fragment) := []
deriving Inhabited

/-- What a line costs: its number, and a gap or an overflow at its end. -/
def lineCost (width used count : Nat) (isLast : Bool) : Nat :=
  1000 +
  (if used > width then (used - width) * 2500
  else if !isLast then (width - used) * (width - used)
  else if count = 1 ∧ 4 * used < width then 25
  else 0)

/-- The best layout whose first line begins with `line`, its latest fragment first, and goes on with
some of `rest`; `later` holds the layouts for what is left after each of these. -/
def bestFrom (width : Nat) (line : List Fragment) (used : Nat) (best : Option Layout) :
    (rest : List Fragment) → (later : List Layout) → Option Layout
  | f :: rest, l :: later =>
    let line := f :: line
    let cost := lineCost width (used + f.width) line.length rest.isEmpty + l.cost
    let better := match best with
      | some b => decide (cost < b.cost)
      | none => true
    let best := if better then some ⟨cost, line.reverse :: l.lines⟩ else best
    bestFrom width line (used + f.width + f.blanks) best rest later
  | _, _ => best

/-- The best layouts of some fragments, of all but the first, and so on. -/
def layouts (width : Nat) : List Fragment → List Layout
  | [] => [{}]
  | f :: fs =>
    let later := layouts width fs
    (bestFrom width [] 0 none (f :: fs) later).getD {} :: later

/-- The text of a line; the blanks at its end are dropped. -/
def lineText : List Fragment → List Char
  | [] => []
  | [f] => f.text
  | f :: g :: fs => f.text ++ List.replicate f.blanks ' ' ++ lineText (g :: fs)

/-- One line in lines of at most the given width. It may begin with a fragment of no width, so that a
word that is too long for the first line can go to the next. -/
def lines (width : Nat) (line : List Char) : List (List Char) :=
  let best := (layouts width (⟨[], 0⟩ :: fragments width line)).headD {}
  best.lines.map lineText

/-- A text in lines, the first of which starts with `first` and the others with `next`; both fill the
same number of columns. -/
def fill (width : Nat) (first next : String) (text : String) : String :=
  let room := width - first.length
  let all := (text.toList.splitOn '\n').flatMap (lines room)
  match all with
  | [] => first
  | l :: ls => String.join ((first ++ String.ofList l) :: ls.map fun l => "\n" ++ next ++ String.ofList l)

end Wrap

end Splice
