import Splice.Decimal.Style
import Splice.Text.Shown

/-!
# Faults in JSON texts

A fault has a cause and a position. A reader only knows what is left of the text when it gives up;
the position follows from that and the whole text.
-/
namespace Splice

namespace Json

/-- What a reader finds where a value should be. The contents of lists and objects do not matter
here. -/
inductive Item where
  | null
  | bool (value : Bool)
  /-- A whole number of the sixty-four bit range, written without point and exponent. -/
  | whole (value : Int)
  | real (value : Double)
  | text (value : String)
  | list
  | object
deriving DecidableEq, Repr, Inhabited

/-- How an unfitting value is named. -/
def Item.describe : Item → String
  | null => "null"
  | bool b => "boolean \x60" ++ (if b then "true" else "false") ++ "\x60"
  | whole n => "integer \x60" ++ toString n ++ "\x60"
  | real d => "floating point \x60" ++ d.json ++ "\x60"
  | text s => "string " ++ Shown.quote s
  | list => "sequence"
  | object => "map"

inductive Cause where
  | endInList
  | endInObject
  | endInText
  | endInValue
  | expectedColon
  | expectedListEnd
  | expectedObjectEnd
  | expectedWord
  | expectedValue
  | keyNotText
  | trailingComma
  | trailingText
  | invalidEscape
  | invalidNumber
  | numberTooLarge
  | controlCharacter
  | loneSurrogate
  | endOfEscape
  | tooDeep
  | invalidType (found : Item) (expected : String)
  | unknownField (name expected : String)
  | duplicateField (name : String)
  | noVariant (type : String)
deriving DecidableEq, Repr, Inhabited

def Cause.message : Cause → String
  | endInList => "EOF while parsing a list"
  | endInObject => "EOF while parsing an object"
  | endInText => "EOF while parsing a string"
  | endInValue => "EOF while parsing a value"
  | expectedColon => "expected \x60:\x60"
  | expectedListEnd => "expected \x60,\x60 or \x60]\x60"
  | expectedObjectEnd => "expected \x60,\x60 or \x60\x7d\x60"
  | expectedWord => "expected ident"
  | expectedValue => "expected value"
  | keyNotText => "key must be a string"
  | trailingComma => "trailing comma"
  | trailingText => "trailing characters"
  | invalidEscape => "invalid escape"
  | invalidNumber => "invalid number"
  | numberTooLarge => "number out of range"
  | controlCharacter => "control character (\\u0000-\\u001F) found while parsing a string"
  | loneSurrogate => "lone leading surrogate in hex escape"
  | endOfEscape => "unexpected end of hex escape"
  | tooDeep => "recursion limit exceeded"
  | invalidType found expected => "invalid type: " ++ found.describe ++ ", expected " ++ expected
  | unknownField name expected =>
    "unknown field \x60" ++ name ++ "\x60, expected \x60" ++ expected ++ "\x60"
  | duplicateField name => "duplicate field \x60" ++ name ++ "\x60"
  | noVariant type => "data did not match any variant of untagged enum " ++ type

/-- A reader's fault. -/
structure Fault where
  cause : Cause
  /-- What was left of the text. -/
  rest : List Char
  /-- How many bytes of what was left had been looked at. -/
  ahead : Nat := 0
deriving DecidableEq, Repr, Inhabited

/-- A line counted from one, and a column counted in bytes. -/
structure Position where
  line : Nat
  column : Nat
deriving DecidableEq, Repr, Inhabited

/-- The position after the given bytes. -/
def Position.after (bytes : List UInt8) : Position :=
  { line := 1 + bytes.count 10
    column := (bytes.reverse.takeWhile (· != 10)).length }

/-- The bytes of a text. -/
def utf8 (cs : List Char) : List UInt8 := cs.flatMap String.utf8EncodeChar

namespace Fault

/-- Where in the whole text the fault is. -/
def position (f : Fault) (whole : List Char) : Position :=
  .after (utf8 (whole.take (whole.length - f.rest.length)) ++ (utf8 f.rest).take f.ahead)

def message (f : Fault) (whole : List Char) : String :=
  let p := f.position whole
  f.cause.message ++ " at line " ++ toString p.line ++ " column " ++ toString p.column

end Fault

end Json

end Splice
