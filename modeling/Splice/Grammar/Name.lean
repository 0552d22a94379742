import Splice.Grammar.State

/-!
# Names

Words used as names: of bindings, of properties, of labels. Words such as `await` and `yield` are
names only outside the functions that give them a meaning.
-/
namespace Splice

namespace Read

variable {input : Source}

/-- The word, if the token is one that may be a name. -/
def nameWord? : TokenKind → Option String
  | .word w => if isReservedWord w then none else some w
  | _ => none

def isName : TokenKind → Bool := fun k => (nameWord? k).isSome

def isWordKind : TokenKind → Bool
  | .word _ => true
  | _ => false

def isStringKind : TokenKind → Bool
  | .string _ _ => true
  | _ => false

def isNumberKind : TokenKind → Bool
  | .number _ _ _ => true
  | .bigint _ _ => true
  | _ => false

/-- Words, strings and numbers, private names, brackets: what a member name may begin with. -/
def startsKey : TokenKind → Bool
  | .word _ => true
  | .string _ _ => true
  | .number _ _ _ => true
  | .bigint _ _ => true
  | .privateName _ => true
  | .punct .lbracket => true
  | _ => false

/-- A name must not be a word that has a meaning in the given context. -/
def checkName (w : String) (c : Context) : Read Unit := do
  if w == "await" && c.inAsync then note .awaitName
  if w == "yield" && c.inGenerator then note .yieldName

/-- A name that has no other meaning here. -/
def isUsableName (k : TokenKind) : Read Bool := do
  let c ← context
  return isName k && !(k == .word "await" && c.inAsync) && !(k == .word "yield" && c.inGenerator)

/-- Reads the name of a binding. -/
def bindingWord : Read (String × Span) := do
  let t ← token
  match t.kind with
  | .word w =>
    if isReservedWord w then throw (.reservedName w)
    checkName w (← context)
    bumpName
    return (w, ⟨t.start, t.stop⟩)
  | _ => unexpected

/-- A name that is bound by a function, a class or a declaration of types. -/
def declaredName : Read Node := do
  let (w, span) ← bindingWord
  return .mk (.name w) .part span []

/-- Reads any word as a name. -/
def anyWord : Read (String × Span) := do
  let t ← token
  match t.kind with
  | .word w =>
    bumpName
    return (w, ⟨t.start, t.stop⟩)
  | _ => unexpected

/-- Reads an identifier as an expression. -/
def identifier : Read Node := do
  let t ← token
  match nameWord? t.kind with
  | some w =>
    checkName w (← context)
    bumpName
    return .mk (.identifier w) .value ⟨⟨t.start, t.stop⟩, []⟩ []
  | none => unexpected

/-- Reads a string and whether it holds halves of surrogate pairs. -/
def stringText : Read (String × Bool) := do
  match ← kind with
  | .string v s =>
    bump
    return (v, s)
  | _ => unexpected

/-- What may follow a word that is meant as a modifier. -/
def canFollowModifier : TokenKind → Bool
  | .punct .lbracket => true
  | .punct .lbrace => true
  | .punct .star => true
  | .punct .ellipsis => true
  | k => startsKey k

/-- The current word is a modifier: what follows may begin a member name, for most words on the
same line. The words of accessors stand right before the name. -/
def isModifier (w : String) : Read Bool := do
  if !(← atWord w) then return false
  let next ← peek
  if w == "get" || w == "set" then return startsKey next.kind
  else if w == "static" then return canFollowModifier next.kind
  else return canFollowModifier next.kind && !next.fresh

end Read

end Splice
