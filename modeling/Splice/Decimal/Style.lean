import Splice.Decimal.Shortest

/-!
# Number texts

Three ways of writing a double, all from its shortest decimal: `plain` never uses an exponent,
`json` always shows a point or an exponent, and `literal` is the shortest source literal.
-/
namespace Splice

namespace Decimal

def zeros (n : Nat) : String := String.ofList (List.replicate n '0')

/-- Positional digits, with a point only where digits follow it. -/
def positional (d : Decimal) : String :=
  let ds := d.digitText
  let p := d.point
  if p ≤ 0 then "0." ++ zeros (-p).toNat ++ ds
  else if p ≥ ds.length then ds ++ zeros (p - ds.length).toNat
  else
    let cs := ds.toList
    String.ofList (cs.take p.toNat) ++ "." ++ String.ofList (cs.drop p.toNat)

/-- One digit, a point and the other digits, then a signed exponent. -/
def scientific (d : Decimal) : String :=
  let e := d.point - 1
  let head := match d.digitText.toList with
    | [] => ""
    | [c] => c.toString
    | c :: cs => c.toString ++ "." ++ String.ofList cs
  head ++ (if e < 0 then "e-" else "e+") ++ toString e.natAbs

end Decimal

namespace Double

/-- The sign, then `body` of the magnitude; the texts of NaN and infinity are given. -/
def signed (x : Double) (nan infinite : String) (body : Decimal → String) : String :=
  if x.isNaN then nan
  else
    let magnitude := if x.isInfinite then infinite else body (Decimal.shortest x.abs)
    if x.isNegative then "-" ++ magnitude else magnitude

/-- Positional digits, however many are needed. -/
def plain (x : Double) : String :=
  x.signed "NaN" "inf" fun d => if d.digits = 0 then "0" else d.positional

/-- Numbers in JSON show a point or an exponent; exponents start at `1e16` and below `1e-5`.
What is not finite has no JSON form and is written `null`. -/
def json (x : Double) : String :=
  if x.isNaN || x.isInfinite then "null"
  else x.signed "null" "null" fun d =>
    if d.digits = 0 then "0.0"
    else if d.point > 16 ∨ d.point ≤ -5 then d.scientific
    else
      let text := d.positional
      if text.contains '.' then text else text ++ ".0"

/-- The usual text of a script number: an exponent from `1e21` on and below `1e-6`. -/
def scriptText (x : Double) : String :=
  x.signed "NaN" "Infinity" fun d =>
    if d.digits = 0 then "0"
    else if d.point > 21 ∨ d.point ≤ -6 then d.scientific
    else d.positional

/-- The whole number in base sixteen. -/
def hexText (x : Double) : String :=
  "0x" ++ String.ofList (Nat.toDigits 16 x.floor)

/-- Drops the zero before a leading point. -/
def withoutLeadingZero (s : List Char) : List Char :=
  match s with
  | '0' :: '.' :: r => '.' :: r
  | _ => s

/-- Drops the plus sign of an exponent. -/
def withoutPlus : List Char → List Char
  | 'e' :: '+' :: r => 'e' :: r
  | c :: r => c :: withoutPlus r
  | [] => []

/-- `.000123` as `123e-6`. -/
def fractionToExponent (s : List Char) : Option (List Char) :=
  match s with
  | '.' :: '0' :: r =>
    let more := r.takeWhile (· == '0')
    let digits := r.dropWhile (· == '0')
    if digits.isEmpty then none
    else some (digits ++ ['e', '-'] ++ (toString (digits.length + more.length + 1)).toList)
  | _ => none

/-- `12000` as `12e3`. -/
def zerosToExponent (s : List Char) : Option (List Char) :=
  let zeros := (s.reverse.takeWhile (· == '0')).length
  if zeros = 0 then none
  else some (s.take (s.length - zeros) ++ ['e'] ++ (toString zeros).toList)

/-- Reads an optional sign and digits. -/
def exponentOf (s : List Char) : Int :=
  let value (ds : List Char) : Nat := ds.foldl (fun n c => n * 10 + (c.toNat - 48)) 0
  match s with
  | '-' :: r => -(value r : Int)
  | '+' :: r => value r
  | _ => value s

/-- `1.2e101` as `12e100`. -/
def pointIntoExponent (s : List Char) : Option (List Char) :=
  let whole := s.takeWhile (· != '.')
  let rest := (s.dropWhile (· != '.')).drop 1
  let frac := rest.takeWhile (· != 'e')
  let expo := (rest.dropWhile (· != 'e')).drop 1
  if rest.isEmpty || expo.isEmpty then none
  else some (whole ++ frac ++ ['e'] ++ (toString (exponentOf expo - (frac.length : Int))).toList)

/-- The first of the shortest texts. -/
def shortestText (best : List Char) : List (List Char) → List Char
  | [] => best
  | s :: rest => shortestText (if s.length < best.length then s else best) rest

/-- The shortest literal of a finite non-negative number: whole numbers below a thousand as they
are; otherwise the first of the shortest among the usual text, a hexadecimal literal and the
exponent forms. -/
def literal (x : Double) : String :=
  let usual := x.scriptText
  if x.isWhole && x.floor < 1000 then usual
  else
    let s := withoutLeadingZero usual.toList
    let hex := if x.isWhole then [x.hexText.toList] else []
    let moved := [fractionToExponent s, zerosToExponent s, pointIntoExponent s].filterMap id
    String.ofList (shortestText (withoutPlus s) (hex ++ moved))

end Double

end Splice
