import Splice.Token.Number

/-!
# Strings, templates and regular expressions

Each reader starts after the opening delimiter and takes a bound on the number of steps, which the
number of characters left always satisfies.
-/
namespace Splice

/-- A string as read so far: the decoded units, the latest first. -/
structure StringRun where
  units : List TextUnit := []
  count : Nat := 0
  escaped : Bool := false
  /-- Invalid escapes. -/
  problems : List Problem := []

/-- A string whose closing quote is missing. -/
def StringRun.unterminated (run : StringRun) (rest : List Char) : Lexeme :=
  { kind := .broken, rest, count := run.count,
    problems := run.problems ++ [.unterminatedString] }

/-- Reads up to the closing quote. -/
def readStringFrom (quote : Char) : (fuel : Nat) → List Char → StringRun → Lexeme
  | 0, rest, run => run.unterminated rest
  | _ + 1, [], run => run.unterminated []
  | fuel + 1, c :: r, run =>
    if c == quote then
      let (value, halves) := encodeUnits run.units.reverse
      { kind := .string value halves, rest := r, count := run.count + 1, escaped := run.escaped,
        problems := run.problems }
    else if c == '\n' || c == '\r' then run.unterminated (c :: r)
    else if c == '\\' then
      match r with
      | [] =>
        -- both the escape and the string lack their end
        StringRun.unterminated
          { run with count := run.count + 1, problems := run.problems ++ [.unterminatedString] } []
      | _ =>
        let e := readEscape false r
        readStringFrom quote fuel e.rest
          { units := (e.units.getD []).reverse ++ run.units
            count := run.count + 1 + e.taken
            escaped := true
            problems := if e.units.isNone then .invalidEscape :: run.problems else run.problems }
    else readStringFrom quote fuel r
      { run with units := .char c :: run.units, count := run.count + 1 }

/-- Reads a string after its opening quote. -/
def readString (quote : Char) (fuel : Nat) (cs : List Char) : Lexeme :=
  readStringFrom quote (fuel + 1) cs { count := 1 }

/-- A template piece as read so far, the latest characters first. `cooked` is lost at the first
invalid escape. -/
structure TemplateRun where
  raw : List Char := []
  cooked : Option (List TextUnit) := some []
  count : Nat := 0

/-- Line ends inside a template count as line feeds. -/
def normalEnds : List Char → List Char
  | '\r' :: '\n' :: r => '\n' :: normalEnds r
  | '\r' :: r => '\n' :: normalEnds r
  | c :: r => c :: normalEnds r
  | [] => []

/-- The piece that has been read. Text with an invalid escape keeps its line ends. -/
def TemplateRun.quasi (run : TemplateRun) : Quasi :=
  let raw := run.raw.reverse
  let decoded := run.cooked.map fun us => encodeUnits us.reverse
  { raw := String.ofList (if run.cooked.isSome then normalEnds raw else raw)
    cooked := decoded.map (·.1)
    surrogates := decoded.any (·.2) }

/-- Reads up to the end of the template or the next substitution. `opening` tells a piece that
begins the literal from one that follows a substitution. -/
def readTemplateFrom (opening : Bool) : (fuel : Nat) → List Char → TemplateRun → Lexeme
  | 0, rest, run => .broken .unterminatedString rest run.count
  | _ + 1, [], run => .broken .unterminatedString [] run.count
  | fuel + 1, c :: r, run =>
    if c.toNat == 0x60 then
      { kind := .template (if opening then .whole else .tail) run.quasi, rest := r,
        count := run.count + 1 }
    else if c == '$' && r.head? == some '{' then
      { kind := .template (if opening then .head else .middle) run.quasi, rest := r.drop 1,
        count := run.count + 2 }
    else if c == '\\' then
      match r with
      | [] =>
        { kind := .broken, rest := [], count := run.count + 1,
          problems := [.unterminatedString, .unterminatedString] }
      | _ =>
        let e := readEscape true r
        readTemplateFrom opening fuel e.rest
          { raw := (r.take e.taken).reverse ++ ('\\' :: run.raw)
            cooked := match e.units, run.cooked with
              | some us, some old => some (us.reverse ++ old)
              | _, _ => none
            count := run.count + 1 + e.taken }
    else if c == '\r' then
      let lineFeed := (r.take 1).filter (· == '\n')
      readTemplateFrom opening fuel (r.drop lineFeed.length)
        { raw := lineFeed ++ c :: run.raw
          cooked := run.cooked.map (.char '\n' :: ·)
          count := run.count + 1 + lineFeed.length }
    else readTemplateFrom opening fuel r
      { raw := c :: run.raw, cooked := run.cooked.map (.char c :: ·), count := run.count + 1 }

/-- Reads a template piece after its opening delimiter, which is one character. -/
def readTemplate (opening : Bool) (fuel : Nat) (cs : List Char) : Lexeme :=
  readTemplateFrom opening (fuel + 1) cs { count := 1 }

/-- The body of a regular expression, up to the closing slash. -/
def readRegexpBody : (inClass : Bool) → List Char → List Char → Option (List Char × List Char)
  | _, [], _ => none
  | inClass, c :: r, acc =>
    if Blank.isLineEnd c then none
    else if c == '\\' then
      match r with
      | d :: r' =>
        if Blank.isLineEnd d then none else readRegexpBody inClass r' (d :: c :: acc)
      | [] => none
    else if c == '[' then readRegexpBody true r (c :: acc)
    else if c == ']' then readRegexpBody false r (c :: acc)
    else if c == '/' && !inClass then some (acc.reverse, r)
    else readRegexpBody inClass r (c :: acc)

def isFlagChar (c : Char) : Bool := c.isAlphanum || c == '_' || c == '$'

/-- The faults among the flags. -/
def flagProblems : (seen : List Char) → List Char → List Problem
  | _, [] => []
  | seen, f :: fs =>
    if !("dgimsuvy".toList.contains f) then .unknownFlag f :: flagProblems seen fs
    else if seen.contains f then .repeatedFlag f :: flagProblems seen fs
    else flagProblems (f :: seen) fs

/-- Reads a regular expression after its opening slash. -/
def readRegexp (cs : List Char) : Lexeme :=
  match readRegexpBody false cs [] with
  | none => .broken .unterminatedRegexp [] (cs.length + 1)
  | some (body, r) =>
    let flags := r.takeWhile isFlagChar
    { kind := .regexp (String.ofList body) (String.ofList flags)
      rest := r.dropWhile isFlagChar
      count := body.length + 2 + flags.length
      problems := flagProblems [] flags }

end Splice
