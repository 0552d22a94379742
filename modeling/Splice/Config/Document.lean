import Splice.Config.Basic
import Splice.Json.Item
import Splice.Json.Value

/-!
# Configuration documents

A configuration is a JSON object whose only field is `replace`, an object that maps keys to booleans,
numbers and texts. A list that holds at most this inner object means the same.
-/
namespace Splice

/-! ## Writing -/

def Value.toJson : Value → Json
  | bool b => .bool b
  | number d => .number d
  | text s => .text s

namespace Config

def toJson (c : Config) : Json :=
  .object [("replace", .object (c.replace.toList.map fun (k, v) => (k, v.toJson)))]

/-- The configuration as a document. -/
def write (c : Config) : String := String.ofList c.toJson.compact

/-! ## Reading -/

open Json (Reader)

/-- The value that an item stands for. -/
def valueOf? : Json.Item → Option Value
  | .bool b => some (.bool b)
  | .whole n => some (.number (if n < 0 then (Double.ofNat n.natAbs).neg else Double.ofNat n.natAbs))
  | .real d => some (.number d)
  | .text s => some (.text s)
  | _ => none

/-- How deep lists and objects may be nested in a document. -/
def maxDepth : Nat := 127

/-- One entry; a later entry replaces an earlier one with the same key. -/
def entry (depth : Nat) (key : String) (es : Entries) : Reader Entries := fun s => do
  let (_, r) ← Reader.colon s
  let (i, r) ← Reader.item depth r
  match valueOf? i with
  | some v => return (es.insert key v, r)
  | none => Reader.misfit (.noVariant "ReplaceValue") r

/-- The object that maps keys to values. -/
def entries (depth : Nat) : Reader Entries := fun s =>
  match Reader.skipBlanks s with
  | [] => Reader.fail .endInValue []
  | '\x7b' :: r => Reader.objectOf (entry depth) {} r
  | r => Reader.refuse "a map" r

/-- A field of the document. There is only one, and it must not come twice. -/
def field (name : String) (found : Option Entries) : Reader (Option Entries) := fun s =>
  if name ≠ "replace" then Reader.misfit (.unknownField name "replace") s
  else if found.isSome then Reader.misfit (.duplicateField name) s
  else do
    let (_, r) ← Reader.colon s
    let (es, r) ← entries (maxDepth - 2) r
    return (some es, r)

/-- The end of a document that is a list. -/
def listEnd : Reader Unit := fun s =>
  match Reader.skipBlanks s with
  | [] => Reader.fail .endInList []
  | ']' :: r => .ok ((), r)
  | ',' :: r =>
    match Reader.skipBlanks r with
    | ']' :: r => Reader.fail .trailingComma (']' :: r) 1
    | r => Reader.fail .trailingText r 1
  | r => Reader.fail .trailingText r 1

/-- A document that is a list; the opening bracket has been read. -/
def ofList : Reader Entries := fun s =>
  match Reader.skipBlanks s with
  | [] => Reader.fail .endInList []
  | ']' :: r => .ok ({}, r)
  | r => do
    let (es, r) ← entries (maxDepth - 2) r
    let (_, r) ← listEnd r
    return (es, r)

/-- A whole document. -/
def document : Reader Config := fun s => do
  let (es, r) ← match Reader.skipBlanks s with
    | [] => Reader.fail .endInValue []
    | '[' :: r => ofList r
    | '\x7b' :: r => do
      let (found, r) ← Reader.objectOf field none r
      pure (found.getD {}, r)
    | r => Reader.refuse "struct DefineConfig" r
  let (_, r) ← Reader.finished r
  return (⟨es⟩, r)

/-- Reads a document; the fault's message tells where it is. -/
def parse (source : String) : Except String Config :=
  match document source.toList with
  | .ok (c, _) => .ok c
  | .error f => .error (f.message source.toList)

end Config

end Splice
