/-!
# Comments

Comments are gathered while tokens are read. A comment that stands before a token on a line of its
own, or on the token's line, leads that token; a comment that follows a token and ends its line
belongs to nothing and is dropped when printing.
-/
namespace Splice

inductive CommentContent where
  | normal
  /-- A comment that must be kept, such as a licence. -/
  | legal
  /-- Marks a call without side effects. -/
  | pure
  /-- Marks a function without side effects. -/
  | inert
deriving DecidableEq, Repr, Inhabited

structure Comment where
  start : Nat
  /-- The whole comment with its delimiters. -/
  text : List Char
  isBlock : Bool
  content : CommentContent
  newlineBefore : Bool
  newlineAfter : Bool
  /-- The start of the token the comment leads. -/
  leads : Option Nat
deriving Inhabited

/-- `s` has `p` at its start. -/
def startsWith (s : List Char) (p : String) : Bool := p.toList.isPrefixOf s

/-- `s` has `p` somewhere. -/
def hasText (p : String) : List Char → Bool
  | [] => p.isEmpty
  | c :: cs => startsWith (c :: cs) p || hasText p cs

/-- What the inner text of a comment says about it. -/
def CommentContent.ofInner (isBlock : Bool) (inner : List Char) : CommentContent :=
  if startsWith inner "!" then .legal
  else if isBlock && (hasText "@license" inner || hasText "@preserve" inner) then .legal
  else if isBlock && startsWith inner "*" then .normal
  else
    let s := inner.dropWhile fun c => c == ' ' || c == '\t' || c == '\n' || c == '\r' || c == '\x0c'
    match s with
    | '@' :: r | '#' :: r =>
      if startsWith s "@license" || startsWith s "@preserve" then .legal
      else if startsWith r "__PURE__" then .pure
      else if startsWith r "__NO_SIDE_EFFECTS__" then .inert
      else .normal
    | _ => .normal

/-- What has been seen between tokens so far. -/
structure Trivia where
  /-- The latest comment first. -/
  comments : List Comment := []
  /-- How many of the latest comments still wait for the token they lead. -/
  pending : Nat := 0
  /-- A line has ended since the previous token. -/
  sawNewline : Bool := true
  /-- After these marks a comment leads what follows, even at the end of a line. -/
  opens : Bool := false
deriving Inhabited

namespace Trivia

/-- A line ends. -/
def newline (t : Trivia) : Trivia :=
  if t.pending > 0 then
    { t with
      comments := match t.comments with
        | c :: cs => { c with newlineAfter := true } :: cs
        | [] => []
      pending := if t.sawNewline then t.pending else 0
      sawNewline := true }
  else { t with sawNewline := true }

/-- A comment was read. Reading the same text a second time adds nothing. -/
def comment (t : Trivia) (start : Nat) (text : List Char) (isBlock : Bool)
    (content : CommentContent) : Trivia :=
  let known := match t.comments with
    | c :: _ => decide (start ≤ c.start)
    | [] => false
  if known then t
  else
    let c : Comment :=
      { start, text, isBlock, content, newlineBefore := t.sawNewline, newlineAfter := !isBlock,
        leads := none }
    let trailing := !isBlock && !t.sawNewline && !t.opens
    { t with
      comments := c :: t.comments
      pending := if trailing then 0 else t.pending + 1
      sawNewline := if isBlock then t.sawNewline else true }

/-- Gives the first `n` comments the token they lead. -/
def lead (start : Nat) : Nat → List Comment → List Comment
  | 0, cs => cs
  | _, [] => []
  | n + 1, c :: cs => { c with leads := some start } :: lead start n cs

/-- A token was read: all waiting comments lead it. -/
def token (t : Trivia) (start : Nat) (opens : Bool) : Trivia :=
  { t with
    comments := lead start t.pending t.comments
    pending := 0
    sawNewline := false
    opens }

end Trivia

end Splice
