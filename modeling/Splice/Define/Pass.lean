import Splice.Define.Replacement
import Splice.Define.Table

/-!
# The substitution pass

One walk over a tree replaces the outermost expressions that are keys of a table. What is put in is
not looked at again.
-/
namespace Splice

/-- What a pass did. -/
structure Stats where
  replaced : Nat := 0
  /-- Matches that were kept because a variable is not set. -/
  unresolved : Nat := 0
  /-- Matches that were kept because their replacement cannot be read. -/
  rejected : Nat := 0
deriving DecidableEq, Repr, Inhabited

namespace Stats

def add (a b : Stats) : Stats :=
  ⟨a.replaced + b.replaced, a.unresolved + b.unresolved, a.rejected + b.rejected⟩

instance : Add Stats := ⟨add⟩

@[simp] theorem zero_add (s : Stats) : {} + s = s := by
  change Stats.mk (0 + s.replaced) (0 + s.unresolved) (0 + s.rejected) = s
  simp only [Nat.zero_add]

@[simp] theorem add_zero (s : Stats) : s + {} = s := rfl

end Stats

/-- What a pass needs to know. -/
structure Pass where
  table : Table
  environment : Environment
  /-- Replacements are read as parts of a program in this language. -/
  language : Language

/-- What happens to one expression. -/
inductive Outcome where
  /-- It is no key. -/
  | noMatch
  | replaced (by' : Node)
  | unresolved
  | rejected

namespace Outcome

def isReplaced : Outcome → Bool
  | replaced _ => true
  | _ => false

end Outcome

namespace Pass

/-- What happens to an expression that is a key with the given value. -/
def outcomeOf (p : Pass) (n : Node) (v : Value) : Outcome :=
  match Replacement.resolve p.environment v with
  | .unset _ => .unresolved
  | .resolved r =>
    match r.build p.language n.span with
    | some e => .replaced e
    | none => .rejected

/-- What happens to an expression. Only those of a shape that some key has are printed. -/
def outcome (p : Pass) (n : Node) : Outcome :=
  if p.table.mayMatch n.shape then
    match p.table.lookup n.render with
    | some v => p.outcomeOf n v
    | none => .noMatch
  else .noMatch

/-- What happens at a node, which may be no expression at all. -/
def outcomeAt (p : Pass) (n : Node) : Outcome :=
  match n.place with
  | .value => p.outcome n
  | .part => .noMatch

/-- A shorthand property whose value is replaced gets a key of its own. -/
def afterParts (p : Pass) (form : Form) (children : List Node) : Form :=
  match form with
  | .property t =>
    if t.shorthand && (children.drop 1).any fun v => (p.outcomeAt v).isReplaced then
      .property { t with shorthand := false }
    else form
  | _ => form

mutual

/-- Walks over a tree. -/
def walk (p : Pass) : Node → Node × Stats
  | .mk form place spans cs =>
    match p.outcomeAt (.mk form place spans cs) with
    | .replaced e => (e, { replaced := 1 })
    | .unresolved => (.mk form place spans cs, { unresolved := 1 })
    | .rejected => (.mk form place spans cs, { rejected := 1 })
    | .noMatch =>
      let (cs', stats) := p.walkAll cs
      (.mk (p.afterParts form cs) place spans cs', stats)

def walkAll (p : Pass) : List Node → List Node × Stats
  | [] => ([], {})
  | c :: cs =>
    let (c', s) := p.walk c
    let (cs', t) := p.walkAll cs
    (c' :: cs', s + t)

end

/-- Runs the pass over a program. An empty table changes nothing. -/
def run (p : Pass) (program : Node) : Node × Stats :=
  if p.table.isEmpty then (program, {}) else p.walk program

end Pass

end Splice
