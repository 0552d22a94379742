import Splice.Define.Pass

/-!
# The visitor

How a pass goes over a tree when a program is transformed. Most nodes are visited alike; a shorthand
property has a rule of its own, because `{ x }` must become `{ x: true }` and not `{ true }`.
-/
namespace Splice.Pass

/-- The form and the parts of a shorthand property, and what they add to the counters, if its value is
a key. The key of the property is not visited then, and neither is the value a second time. -/
def visitShorthand (p : Pass) : Form → List Node → Option (Form × List Node × Stats)
  | .property t, [key, value] =>
    if t.shorthand then
      match p.outcomeAt value with
      | .noMatch => none
      | .replaced e =>
        some (.property { t with shorthand := false }, [key, e], { replaced := 1 })
      | .unresolved => some (.property t, [key, value], { unresolved := 1 })
      | .rejected => some (.property t, [key, value], { rejected := 1 })
    else none
  | _, _ => none

mutual

/-- Visits a node. -/
def visit (p : Pass) : Node → Node × Stats
  | .mk form place spans cs =>
    match p.outcomeAt (.mk form place spans cs) with
    | .replaced e => (e, { replaced := 1 })
    | .unresolved => (.mk form place spans cs, { unresolved := 1 })
    | .rejected => (.mk form place spans cs, { rejected := 1 })
    | .noMatch =>
      match p.visitShorthand form cs with
      | some (form', cs', stats) => (.mk form' place spans cs', stats)
      | none =>
        let (cs', stats) := p.visitAll cs
        (.mk form place spans cs', stats)

def visitAll (p : Pass) : List Node → List Node × Stats
  | [] => ([], {})
  | c :: cs =>
    let (c', s) := p.visit c
    let (cs', t) := p.visitAll cs
    (c' :: cs', s + t)

end

/-- Visits a program. An empty table changes nothing. -/
def visitProgram (p : Pass) (program : Node) : Node × Stats :=
  if p.table.isEmpty then (program, {}) else p.visit program

end Splice.Pass
