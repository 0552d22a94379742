import Splice.Json.Number
import Splice.Json.Text

/-!
# Reading values

Objects are read member by member, so that their owner can refuse a member as soon as it is read.
Values that only have to be passed over are read to their end, for their faults.
-/
namespace Splice

namespace Json

namespace Reader

/-! ## Members and elements -/

/-- The members of an object up to its closing brace, at most `fuel` of them. A member's key is
passed to `step`, which reads the rest of the member. -/
def members {σ : Type} (step : String → σ → Reader σ) : (fuel : Nat) → (first : Bool) → σ → Reader σ
  | 0, _, _, s => fail .endInObject s
  | fuel + 1, first, acc, s =>
    let key (r : List Char) : Except Fault (σ × List Char) := do
      let (k, r) ← text r
      let (acc, r) ← step k acc r
      members step fuel false acc r
    match skipBlanks s with
    | [] => fail .endInObject []
    | '\x7d' :: r => .ok (acc, r)
    | c :: r =>
      if first then
        if c = '\x22' then key r else fail .keyNotText (c :: r) 1
      else if c = ',' then
        match skipBlanks r with
        | [] => fail .endInValue []
        | '\x22' :: r => key r
        | '\x7d' :: r => fail .trailingComma ('\x7d' :: r) 1
        | r => fail .keyNotText r 1
      else fail .expectedObjectEnd (c :: r) 1

/-- An object whose opening brace has been read. Every member has characters of its own. -/
def objectOf {σ : Type} (step : String → σ → Reader σ) (acc : σ) : Reader σ := fun s =>
  members step (s.length + 1) true acc s

/-- The elements of a list up to its closing bracket, at most `fuel` of them. -/
def elements (element : Reader Unit) : (fuel : Nat) → (first : Bool) → Reader Unit
  | 0, _, s => fail .endInList s
  | fuel + 1, first, s =>
    let next (r : List Char) : Except Fault (Unit × List Char) := do
      let (_, r) ← element r
      elements element fuel false r
    match skipBlanks s with
    | [] => fail .endInList []
    | ']' :: r => .ok ((), r)
    | c :: r =>
      if first then next (c :: r)
      else if c = ',' then
        match skipBlanks r with
        | [] => fail .endInValue []
        | ']' :: r => fail .trailingComma (']' :: r) 1
        | r => next r
      else fail .expectedListEnd (c :: r) 1

/-- A list whose opening bracket has been read. -/
def listOf (element : Reader Unit) : Reader Unit := fun s => elements element (s.length + 1) true s

/-! ## Values -/

/-- A value that is no list and no object. -/
def scalar : Reader Item := fun s =>
  match s with
  | 'n' :: r => do
    let (_, r) ← word "ull".toList r
    return (.null, r)
  | 't' :: r => do
    let (_, r) ← word "rue".toList r
    return (.bool true, r)
  | 'f' :: r => do
    let (_, r) ← word "alse".toList r
    return (.bool false, r)
  | '-' :: r => number true r
  | '\x22' :: r => do
    let (t, r) ← text r
    return (.text t, r)
  | c :: _ => if c.isDigit then number false s else fail .expectedValue s 1
  | [] => fail .endInValue []

/-- Any value; lists and objects may be nested `depth` deep. -/
def item : (depth : Nat) → Reader Item
  | 0, s =>
    match skipBlanks s with
    | '[' :: r => fail .tooDeep ('[' :: r) 1
    | '\x7b' :: r => fail .tooDeep ('\x7b' :: r) 1
    | r => scalar r
  | depth + 1, s =>
    let inner : Reader Unit := fun s => do
      let (_, r) ← item depth s
      return ((), r)
    match skipBlanks s with
    | '[' :: r => do
      let (_, r) ← listOf inner r
      return (.list, r)
    | '\x7b' :: r => do
      let (_, r) ← objectOf (fun _ _ s => do
        let (_, r) ← colon s
        inner r) () r
      return (.object, r)
    | r => scalar r

/-- Refuses the value at the start of the text, which is of an unexpected type. -/
def refuse {α : Type} (expected : String) : Reader α := fun s =>
  match s with
  | '[' :: _ => fail (.invalidType .list expected) s
  | '\x7b' :: _ => fail (.invalidType .object expected) s
  | _ => do
    let (found, r) ← scalar s
    fail (.invalidType found expected) r

/-- Only blanks may follow. -/
def finished : Reader Unit := fun s =>
  match skipBlanks s with
  | [] => .ok ((), [])
  | r => fail .trailingText r 1

end Reader

end Json

end Splice
