import Splice.Text.Name
import Splice.Token.Basic
import Splice.Token.Escape
import Splice.Token.Problem

/-!
# Numbers

Reading numeric literals: decimal, with separators, fraction and exponent; binary, octal and
hexadecimal; legacy octal; and whole numbers of any size.
-/
namespace Splice

/-- A token as read: its kind, the text after it and the number of characters it takes. -/
structure Lexeme where
  kind : TokenKind
  rest : List Char
  count : Nat
  escaped : Bool := false
  /-- What is wrong with it, in the order of the text. -/
  problems : List Problem := []
deriving Inhabited

namespace Lexeme

def broken (problem : Problem) (rest : List Char) (count : Nat) : Lexeme :=
  { kind := .broken, rest, count, problems := [problem] }

/-- A lexeme after something wrong in its first characters. -/
def after (problem : Option Problem) (l : Lexeme) : Lexeme :=
  { l with problems := problem.toList ++ l.problems }

/-- The problem of meeting the next character, or the end, where neither may stand. -/
def unexpected (rest : List Char) : Problem :=
  match rest with
  | c :: _ => .invalidCharacter c
  | [] => .unexpectedEnd

end Lexeme

/-- A run of digits with separators. -/
structure DigitRun where
  digits : List Char
  rest : List Char
  count : Nat
  problem : Option Problem := none

/-- Reads digits, each separator standing between two of them. -/
def digitRun (ok : Char → Bool) : List Char → DigitRun
  | '_' :: d :: r =>
    if ok d then
      let run := digitRun ok r
      { run with digits := d :: run.digits, count := run.count + 2 }
    else { digits := [], rest := d :: r, count := 1, problem := some (.invalidCharacter d) }
  | ['_'] => { digits := [], rest := [], count := 1, problem := some .unexpectedEnd }
  | c :: r =>
    if ok c then
      let run := digitRun ok r
      { run with digits := c :: run.digits, count := run.count + 1 }
    else { digits := [], rest := c :: r, count := 0 }
  | [] => { digits := [], rest := [], count := 0 }

/-- Reads a run that has to begin with a digit. -/
def digitRun1 (ok : Char → Bool) (cs : List Char) : DigitRun :=
  match cs with
  | c :: _ =>
    if ok c then digitRun ok cs
    else { digits := [], rest := cs, count := 0, problem := some (.invalidCharacter c) }
  | [] => { digits := [], rest := [], count := 0, problem := some .unexpectedEnd }

/-- The value of digits in a base. -/
def digitsValue (base : Nat) (ds : List Char) : Nat :=
  ds.foldl (fun n c => n * base + (hexValue c).getD 0) 0

/-- How many digits of a base surely fit into sixty-four bits. -/
def wordDigits (base : Nat) : Nat :=
  if base = 2 then 64 else if base = 8 then 21 else if base = 16 then 16 else 19

/-- The double that whole digits stand for: rounded once while they fit into a word, and digit by
digit when there are more. -/
def wholeDouble (base : Nat) (ds : List Char) : Double :=
  if ds.length ≤ wordDigits base then Double.ofNat (digitsValue base ds)
  else ds.foldl (fun x c => x.appendDigit base ((hexValue c).getD 0)) Double.zero

/-- No name or digit may follow a number directly. -/
def endNumber (kind : TokenKind) (rest : List Char) (count : Nat) : Lexeme :=
  match rest with
  | c :: r =>
    if NameChar.isStart c || c.isDigit then
      .broken .invalidNumberEnd (r.dropWhile NameChar.isStart)
        (count + 1 + (r.takeWhile NameChar.isStart).length)
    else { kind, rest, count }
  | [] => { kind, rest, count }

/-- Checks what follows a number that has been read. -/
def Lexeme.ended (l : Lexeme) : Lexeme :=
  let e := endNumber l.kind l.rest l.count
  { e with problems := l.problems ++ e.problems }

/-- Reads the exponent after its letter, whatever follows it; `digits · 10 ^ scale` has been read so
far. A number whose exponent lacks digits has no value. -/
def readExponent (spelling : NumberSpelling) (digits : List Char) (scale : Int) (cs : List Char)
    (count : Nat) : Lexeme :=
  let (negative, r, n) := match cs with
    | '-' :: r => (true, r, 1)
    | '+' :: r => (false, r, 1)
    | _ => (false, cs, 0)
  let run := digitRun1 Char.isDigit r
  let e : Int := digitsValue 10 run.digits
  let value := Double.ofDecimal (digitsValue 10 digits) (scale + if negative then -e else e)
  { kind := .number (if run.digits.isEmpty then none else some value) spelling ""
    rest := run.rest
    count := count + n + run.count
    problems := run.problem.toList }

/-- Reads what follows the decimal point; `digits` stand before it. -/
def readFraction (digits : List Char) (needed : Bool) (cs : List Char) (count : Nat) : Lexeme :=
  let startsDigit := cs.head?.any Char.isDigit
  let run : DigitRun :=
    if startsDigit then digitRun Char.isDigit cs
    else if needed then digitRun1 Char.isDigit cs
    else { digits := [], rest := cs, count := 0 }
  let all := digits ++ run.digits
  let scale : Int := -(run.digits.length : Int)
  let count := count + run.count
  .after run.problem <| match run.rest with
    | 'e' :: r | 'E' :: r => (readExponent .float all scale r (count + 1)).ended
    | rest =>
      endNumber (.number (some (Double.ofDecimal (digitsValue 10 all) scale)) .float "") rest count

/-- Reads what follows the whole digits of a decimal literal. -/
def readAfterDigits (digits : List Char) (rest : List Char) (count : Nat) : Lexeme :=
  match rest with
  | '.' :: r => readFraction digits false r (count + 1)
  | 'e' :: r | 'E' :: r => (readExponent .exponential digits 0 r (count + 1)).ended
  | 'n' :: r => endNumber (.bigint (toString (digitsValue 10 digits)) .decimal) r (count + 1)
  | _ => endNumber (.number (some (wholeDouble 10 digits)) .decimal "") rest count

/-- Reads the digits of a literal with a base mark, after the mark. -/
def readBased (base : Nat) (spelling : NumberSpelling) (ok : Char → Bool) (cs : List Char) :
    Lexeme :=
  let run := digitRun1 ok cs
  match run.problem with
  | some p => .broken p run.rest (run.count + 2)
  | none =>
    match run.rest with
    | 'n' :: r =>
      endNumber (.bigint (toString (digitsValue base run.digits)) spelling) r (run.count + 3)
    | rest =>
      endNumber (.number (some (wholeDouble base run.digits)) spelling "") rest (run.count + 2)

/-- Reads digits after a leading zero: octal, unless a larger digit occurs. A name may follow an
exponent directly. -/
def readLegacy (cs : List Char) : Lexeme :=
  let digits := cs.takeWhile Char.isDigit
  let rest := cs.dropWhile Char.isDigit
  let count := digits.length
  if digits.all isOctalDigit then
    endNumber (.number (some (wholeDouble 8 (digits.drop 1))) .octal "") rest count
  else
    match rest with
    | '.' :: r => readFraction digits false r (count + 1)
    | 'e' :: r => readExponent .exponential digits 0 r (count + 1)
    | _ => endNumber (.number (some (wholeDouble 10 digits)) .decimal "") rest count

/-- Reads a literal that begins with a digit. After a zero with an exponent, `0e5`, a name may follow
directly. -/
def readDigits (cs : List Char) : Lexeme :=
  match cs with
  | '0' :: 'x' :: r | '0' :: 'X' :: r => readBased 16 .hex isHexDigit r
  | '0' :: 'o' :: r | '0' :: 'O' :: r => readBased 8 .octal isOctalDigit r
  | '0' :: 'b' :: r | '0' :: 'B' :: r => readBased 2 .binary (fun c => c == '0' || c == '1') r
  | '0' :: 'e' :: r | '0' :: 'E' :: r => readExponent .exponential ['0'] 0 r 2
  | '0' :: r =>
    if r.head?.any Char.isDigit then readLegacy cs else readAfterDigits ['0'] r 1
  | _ =>
    let run := digitRun Char.isDigit cs
    (readAfterDigits run.digits run.rest run.count).after run.problem

/-- Adds to a number how it is written. -/
def Lexeme.withText (l : Lexeme) (cs : List Char) : Lexeme :=
  match l.kind with
  | .number v s _ => { l with kind := .number v s (String.ofList (cs.take l.count)) }
  | _ => l

/-- Reads a number that begins with a digit, or with a point and a digit. -/
def readNumber (cs : List Char) : Lexeme :=
  match cs with
  | '.' :: r => (readFraction [] true r 1).withText cs
  | _ => (readDigits cs).withText cs

end Splice
