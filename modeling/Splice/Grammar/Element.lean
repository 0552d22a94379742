import Splice.Grammar.Binding

/-!
# Elements

Markup inside expressions: elements and fragments with attributes and contents. Names may hold
hyphens, attribute texts have no escapes, and the text between tags is taken as it stands, so the
grammar asks for tokens of its own here.
-/
namespace Splice

namespace Read

variable {input : Source} (go : Descend)

/-! ## Tokens of elements -/

/-- The token at the start of some content: a tag, a container, or text up to the next of them. -/
def contentLexeme (cs : List Char) : Lexeme :=
  match cs with
  | [] => { kind := .eof, rest := [], count := 0 }
  | '<' :: r => { kind := .punct .lt, rest := r, count := 1 }
  | '{' :: r => { kind := .punct .lbrace, rest := r, count := 1 }
  | _ =>
    let text := cs.takeWhile fun c => c != '<' && c != '{'
    { kind := .elementText (String.ofList text), rest := cs.drop text.length, count := text.length }

theorem contentLexeme_readOff (cs : List Char) : (contentLexeme cs).ReadOff cs := by
  unfold contentLexeme
  split
  · exact .of_end
  · exact .of_punct rfl rfl
  · exact .of_punct rfl rfl
  · refine .of_text trivial (((Leaves.refl cs).take_drop ?_).count_eq (Nat.zero_add _))
    exact (List.takeWhile_prefix _).length_le

/-- Reads the next token as content. -/
def advanceContent : Read Unit := modify fun s =>
  accept { s with lastStop := s.token.stop }
    (.ofLexeme (contentLexeme s.rest) s.pos s.trivia false false false [])
    (placed_ofLexeme s.placed.leaves (contentLexeme_readOff _) ..)

/-- Moves over a mark that ends a tag or container; `inside` another element, content follows. -/
def expectEnd (inside : Bool) (p : Punct) : Read Unit := do
  if inside then
    if ← isAt p then advanceContent else throw (.expected p.text (← kind).text)
  else expect p

/-- A character of a name with hyphens. -/
def isHyphenPart (c : Char) : Bool := NameChar.isPart c || c == '-'

theorem isText_extend {w : String} (tidy : (TokenKind.word w).Tidy) (cs : List Char) :
    (TokenKind.word (w ++ String.ofList (cs.takeWhile isHyphenPart))).IsText := by
  intro inside
  rw [String.toList_append, String.toList_ofList, List.mem_append] at inside
  rcases inside with before | after
  · exact tidy before
  · exact absurd (List.all_eq_true.mp List.all_takeWhile _ after) (by decide)

/-- Extends a word by hyphens and the name characters after them. -/
def extendName : Read Unit := modify fun s =>
  match word : s.token.kind with
  | .word w =>
    let more := s.rest.takeWhile isHyphenPart
    { s with
      token :=
        { s.token with
          kind := .word (w ++ String.ofList more)
          stop := s.token.stop + more.length }
      rest := s.rest.drop more.length
      pos := s.pos + more.length
      placed := s.placed.extend (isText_extend (word ▸ s.tidy) s.rest)
        (List.takeWhile_prefix _).length_le }
  | _ => s

/-- A quoted attribute text, without escapes. -/
def attributeLexeme (quote : Char) (cs : List Char) : Lexeme :=
  let text := cs.takeWhile (· != quote)
  match cs.drop text.length with
  | _ :: r =>
    { kind := .string (String.ofList text) false, rest := r, count := text.length + 2 }
  | [] => .broken .unterminatedString [] (text.length + 1)

/-- The opening quote is counted as well. -/
theorem attributeLexeme_readOff (quote : Char) (cs : List Char) (c : Char) :
    (attributeLexeme quote cs).ReadOff (c :: cs) := by
  have inside : Leaves (c :: cs) (1 + (cs.takeWhile (· != quote)).length)
      (cs.drop (cs.takeWhile (· != quote)).length) :=
    (Leaves.refl _).next.take_drop (List.takeWhile_prefix _).length_le
  simp only [attributeLexeme]
  split
  next r same =>
    rw [same] at inside
    refine .of_text trivial (inside.next.count_eq ?_)
    rw [Nat.add_comm 1, Nat.add_assoc]
  next same =>
    rw [same] at inside
    exact .of_text trivial (inside.count_eq (Nat.add_comm ..))

/-- Moves over the equals sign to the value of an attribute. -/
def advanceAttribute : Read Unit := modify fun s =>
  let s : ReadState input := { s with lastStop := s.token.stop }
  let k := skipFrom s.language.script .between s.rest
    { rest := s.rest, pos := s.pos, trivia := s.trivia, fresh := false }
  have skipped : Leaves s.source k.pos k.rest := skipFrom_leaves s.placed.leaves
  match after : k.rest with
  | c :: r =>
    if c.toNat == 0x22 || c.toNat == 0x27 then
      accept s (.ofLexeme (attributeLexeme c r) k.pos k.trivia k.fresh k.pure k.inert [])
        (placed_ofLexeme (after ▸ skipped) (attributeLexeme_readOff ..) ..)
    else
      accept s (scanToken s.language.script (s.size - s.pos) s.rest s.pos s.trivia false)
        (placed_scanToken s.placed.leaves ..)
  | [] =>
    accept s (scanToken s.language.script (s.size - s.pos) s.rest s.pos s.trivia false)
      (placed_scanToken s.placed.leaves ..)

/-! ## Names -/

/-- One part of a name. -/
def elementWord : Read (String × Span) := do
  match ← kind with
  | .word _ => do
    extendName
    anyWord
  | _ => unexpected

/-- The name of an element: plain, with a namespace, or a member of an object. The names of members
are without dashes. -/
def elementName : Read Node := do
  let s ← start
  let (w, span) ← elementWord
  if ← eat .colon then
    let (p, name) ← elementWord
    part (.elementNamespaced w p) s [] [span, name]
  else
    iterate (.mk (.elementName w) .part span [] : Node) fun n => do
      if ← eat .dot then
        let (p, name) ← elementWord
        if p.toList.contains '-' then throw .unexpectedToken
        return .more (← part (.elementMember p) s [n] [name])
      else return .done n

mutual

/-- The text of an element's name. -/
def elementNameText : Node → String
  | .mk form _ _ cs =>
    match form with
    | .elementName w => w
    | .elementNamespaced n w => n ++ ":" ++ w
    | .elementMember w => elementNameTextFirst cs ++ "." ++ w
    | _ => ""

def elementNameTextFirst : List Node → String
  | [] => ""
  | c :: _ => elementNameText c

end

/-! ## Attributes and containers -/

/-- An expression in braces; commas are not operators here. -/
def containedExpression : Read Node := do
  let e ← within (fun c => { inAsync := c.inAsync : Context }) (go .expression)
  match e.form with
  | .sequence => throw .elementComma
  | _ => return e

/-- A container in braces, the opening one being the current token. -/
def container (inside : Bool) : Read Node := do
  let s ← start
  expect .lbrace
  if ← isAt .rbrace then
    let empty : Node := .mk .emptyContainer .part ⟨⟨s + 1, ← start⟩, []⟩ []
    expectEnd inside .rbrace
    part .container s [empty]
  else
    let e ← containedExpression go
    expectEnd inside .rbrace
    part .container s [e]

def attributeValue : Read Node := do
  let s ← start
  match ← kind with
  | .string v _ => do
    bump
    part (.attributeText v) s
  | .punct .lbrace => container go false
  | .punct .lt => return (← go (.element false)).withPlace .part
  | _ => unexpected

def attributeName : Read Node := do
  let s ← start
  let (w, span) ← elementWord
  if ← eat .colon then
    let (p, name) ← elementWord
    part (.elementNamespaced w p) s [] [span, name]
  else part (.elementName w) s

def elementAttribute : Read Node := do
  let s ← start
  if ← eat .lbrace then
    expect .ellipsis
    let e ← containedExpression go
    expect .rbrace
    part .attributeSpread s [e]
  else
    let n ← attributeName
    let v ← if ← isAt .eq then do
        advanceAttribute
        attributeValue go
      else pure .absent
    part .elementAttribute s [n, v]

def elementAttributes : Read (List Node) := do
  let as ← iterate ([] : List Node) fun acc => do
    match ← kind with
    | .eof | .punct .lt | .punct .gt | .punct .slash => return .done acc
    | _ => return .more ((← elementAttribute go) :: acc)
  return as.reverse

/-! ## Contents -/

/-- What stands between an opening and a closing tag; the closing tag is the current token. -/
def contents : Read (List Node) := do
  let cs ← iterate ([] : List Node) fun acc => do
    let s ← start
    match ← kind with
    | .elementText t => do
      advanceContent
      return .more ((← part (.contentText t) s) :: acc)
    | .punct .lbrace => do
      if (← peek).kind == .punct .ellipsis then
        bump
        bump
        let e ← containedExpression go
        expectEnd true .rbrace
        return .more ((← part .contentSpread s [e]) :: acc)
      else return .more ((← container go true) :: acc)
    | .punct .lt => do
      if (← peek).kind == .punct .slash then return .done acc
      else return .more ((← go (.element true)).withPlace .part :: acc)
    | _ => unexpected
  return cs.reverse

/-- The closing tag; its name, or nothing for a fragment. -/
def closingTag (inside : Bool) : Read Node := do
  expect .lt
  expect .slash
  let n ← if ← isAt .gt then pure .absent else elementName
  expectEnd inside .gt
  return n

/-- An element or fragment from its opening angle bracket on. -/
def element (inside : Bool) : Read Node := do
  let s ← start
  expect .lt
  if ← isAt .gt then
    expectEnd true .gt
    let opening ← spanFrom s
    let cs ← contents go
    let (close, closing) ← located (closingTag inside)
    if close.isPresent then note .closingFragment
    value .fragment s cs [opening, closing]
  else
    let n ← elementName
    let args ← if ← isTyped then typeArguments go else pure .absent
    let as ← elementAttributes go
    if ← eat .slash then
      expectEnd inside .gt
      value .element s [n, args, .group as, .group [], .absent] [← spanFrom s]
    else
      expectEnd true .gt
      let opening ← spanFrom s
      let cs ← contents go
      let (close, closing) ← located (closingTag inside)
      if elementNameText n != elementNameText close then note (.closingTag (elementNameText n))
      value .element s [n, args, .group as, .group cs, if close.isPresent then close else n]
        [opening, closing]

end Read

end Splice
