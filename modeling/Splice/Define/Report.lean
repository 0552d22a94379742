import Splice.Define.Replacement
import Splice.Define.Table
import Splice.Json.Value
import Splice.Config.Document
import Splice.Text.Shown

/-!
# Reports

What each key of a table stands for in an environment, for people and for programs.
-/
namespace Splice

/-- What one key stands for. -/
structure ReportEntry where
  key : String
  value : Value
  kind : String
  /-- Nothing for a variable that is not set. -/
  resolved : Option String
deriving DecidableEq, Repr, Inhabited

structure Report where
  entries : List ReportEntry
  /-- Keys that the table dropped. -/
  dropped : List String
deriving DecidableEq, Repr, Inhabited

/-- The replacement as a report shows it. -/
def Replacement.shown : Replacement → String
  | boolean b => if b then "true" else "false"
  | number d => d.plain
  | string s => Shown.quote s
  | expression t => t

namespace Report

def entryOf (env : Environment) (key : String) (v : Value) : ReportEntry :=
  match Replacement.resolve env v with
  | .resolved r => { key, value := v, kind := r.kind, resolved := some r.shown }
  | .unset _ => { key, value := v, kind := "unresolved", resolved := none }

/-- The report on a table. -/
def ofTable (t : Table) (env : Environment) : Report :=
  { entries := t.entries.toList.map fun e => entryOf env e.1 e.2
    dropped := t.dropped }

/-! ## For people -/

/-- Fills a column up with blanks. -/
def padded (width : Nat) (s : String) : String :=
  String.ofList (s.toList ++ List.replicate (width - s.length) ' ')

/-- The column of the keys has room for the bytes of the longest one. -/
def keyWidth (r : Report) : Nat := (r.entries.map fun e => e.key.utf8ByteSize).foldl max 0

def row (width : Nat) (e : ReportEntry) : String :=
  padded width e.key ++ "  " ++ padded 10 e.kind ++ "  " ++
    e.resolved.getD "(environment variable not set)" ++ "\n"

def droppedRow (key : String) : String := "ignored key: " ++ key ++ "\n"

/-- One row for each key, then one for each dropped key. -/
def text (r : Report) : String :=
  String.join (r.entries.map (row r.keyWidth) ++ r.dropped.map droppedRow)

/-! ## For programs -/

def entryJson (e : ReportEntry) : Json :=
  .object [("key", .text e.key), ("value", e.value.toJson), ("kind", .text e.kind),
    ("resolved", (e.resolved.map Json.text).getD .null)]

def toJson (r : Report) : Json :=
  .object [("entries", .list (r.entries.map entryJson)),
    ("dropped", .list (r.dropped.map Json.text))]

def json (r : Report) : String := String.ofList (r.toJson.pretty 0)

end Report

end Splice
