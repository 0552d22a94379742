import Splice.Grammar.Function

/-!
# Literals of objects and arrays

A shorthand property with a default value is read as a part of a target, since it is only allowed
where the object turns out to be one; its start is remembered until then.
-/
namespace Splice

namespace Read

variable {input : Source} (go : Descend)

/-- An expression of a list, possibly spread. -/
def spreadable : Read Node := do
  let s ← start
  if ← eat .ellipsis then
    let e ← go (.assignment true)
    part .spread s [e]
  else go (.assignment true)

/-- Remembers that the literal that began at `s` ends with a comma. -/
def noteTrailing (s : Nat) (comma : Bool) : Read Unit :=
  if comma then modify fun st => { st with trailing := s :: st.trailing } else pure ()

def arrayLiteral : Read Node := do
  let s ← start
  expect .lbracket
  let (es, comma) ← within (fun c => { c with allowIn := true }) <|
    separated .rbracket .comma do
      if ← isAt .comma then
        let p ← start
        return .mk .hole .part ⟨⟨p, p⟩, []⟩ []
      else spreadable go
  noteTrailing s comma
  expect .rbracket
  value .array s es

/-- A getter or setter of an object from its key on. -/
def objectAccessor (s : Nat) (kind : PropertyKind) : Read Node := do
  let (key, computed) ← propertyKey go
  let f ← functionRest go (← start) .absent { role := .method } false
  checkAccessor kind f
  part (.property { kind, computed }) s [key, f]

def objectMember : Read Node := do
  let s ← start
  if ← isAt .ellipsis then spreadable go
  else
    let ms ← modifiers
    if ← isModifier "get" then
      bump
      objectAccessor go s .get
    else if ← isModifier "set" then
      bump
      objectAccessor go s .set
    else
      let generator ← eat .star
      let first ← kind
      let (key, computed) ← propertyKey go
      let k ← kind
      if generator || k == .punct .lparen || k == .punct .lt then
        checkModifiers .modifierMisplaced ["async"] ms
        let f ← functionRest go (← start) .absent
          { role := .method, async := ms.contains "async", generator } false
        part (.property { method := true, computed }) s [key, f]
      else if k != .punct .colon && (← isUsableName first) then
        checkModifiers .modifierMisplaced [] ms
        let name := (nameWord? first).getD ""
        let v : Node := .mk (.identifier name) .value key.span []
        if ← eat .eq then
          let init ← within (fun c => { c with allowIn := true }) (go (.assignment true))
          modify fun st => { st with defaults := s :: st.defaults }
          part .targetShorthand s [v.withPlace .part, init]
        else part (.property { shorthand := true }) s [key, v]
      else
        checkModifiers .modifierMisplaced [] ms
        expect .colon
        let v ← within (fun c => { c with allowIn := true }) (go (.assignment true))
        part (.property { computed }) s [key, v]

def objectLiteral : Read Node := do
  let s ← start
  expect .lbrace
  let (ms, comma) ← within (fun c => { c with allowIn := true }) <|
    separated .rbrace .comma (objectMember go)
  noteTrailing s comma
  expect .rbrace
  value .object s ms

end Read

end Splice
