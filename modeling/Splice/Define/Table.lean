import Splice.Config.Basic
import Splice.Define.Expression
import Splice.Environment

/-!
# Replacement tables

A table has the keys of a configuration in their printed form. Keys that are no expressions, and keys
whose printed form another key before them has, are dropped.
-/
namespace Splice

structure Table where
  entries : Entries := {}
  shapes : List Shape := []
  /-- The dropped keys as they were configured, the latest first. -/
  droppedReversed : List String := []
deriving Inhabited

namespace Table

/-- Adds a configured key. -/
def add (t : Table) (key : String) (v : Value) : Table :=
  match normalizeKey key with
  | none => { t with droppedReversed := key :: t.droppedReversed }
  | some (text, shape) =>
    if t.entries.contains text then { t with droppedReversed := key :: t.droppedReversed }
    else { t with entries := t.entries.insert text v, shapes := shape :: t.shapes }

/-- The table of a configuration. -/
def ofConfig (c : Config) : Table :=
  c.replace.toList.foldl (fun t e => t.add e.1 e.2) {}

/-- The value for an expression, by its printed form. -/
def lookup (t : Table) (text : String) : Option Value := t.entries.get? text

/-- Some key has the given shape. -/
def mayMatch (t : Table) (s : Shape) : Bool := t.shapes.contains s

def size (t : Table) : Nat := t.entries.size

def isEmpty (t : Table) : Bool := t.entries.isEmpty

/-- The variables that values refer to. -/
def references (t : Table) : List String :=
  t.entries.toList.filterMap fun e => match e.2 with
    | .text s => Environment.reference? s
    | _ => none

/-- The dropped keys in the order of the configuration. -/
def dropped (t : Table) : List String := t.droppedReversed.reverse

end Table

end Splice
