import Splice.Json.Reader

/-!
# Numbers in JSON

As many digits as fit into sixty-four bits are gathered into a whole number; further digits before
the point only count as tens, further digits after it are dropped. The whole number is then scaled by
a power of ten with a single rounding, so the result can be off by one in the last place.
-/
namespace Splice

namespace Json

namespace Reader

/-- The largest whole number that is gathered. -/
def largest : Nat := Nat.pow 2 64 - 1

/-- Gathers digits as long as the number stays in range; how many were taken, and what is left. -/
def gather (n count : Nat) : List Char → Nat × Nat × List Char
  | [] => (n, count, [])
  | c :: r =>
    if c.isDigit then
      let m := n * 10 + (c.toNat - 48)
      if m ≤ largest then gather m (count + 1) r else (n, count, c :: r)
    else (n, count, c :: r)

/-- A power of ten as a double. -/
def power (e : Nat) : Double := Double.ofNat (Nat.pow 10 e)

/-- Divides by a power of ten, in steps where one double cannot hold it. Zero is not divided any
more, so there are never many steps. -/
def scaleDown (x : Double) (e : Nat) : Double :=
  if e ≤ 308 then x.div (power e)
  else if x = Double.zero then x
  else scaleDown (x.div (power 308)) (e - 308)
termination_by e

/-- The double for `n · 10 ^ e`; `s` is what is left of the text. -/
def scale (n : Nat) (e : Int) : Reader Double := fun s =>
  let x := Double.ofNat n
  if e ≥ 0 then
    if e ≤ 308 then
      let y := x.mul (power e.toNat)
      if y.isInfinite then fail .numberTooLarge s else .ok (y, s)
    else if n = 0 then .ok (x, s)
    else fail .numberTooLarge s
  else .ok (scaleDown x e.natAbs, s)

/-- The digits of an exponent after the first. An exponent of more than thirty-one bits decides the
value alone: `none` stands for zero. -/
def exponentDigits (isZero positive : Bool) (e : Nat) : Reader (Option Nat)
  | [] => .ok (some e, [])
  | c :: r =>
    if c.isDigit then
      let d := e * 10 + (c.toNat - 48)
      if d < Nat.pow 2 31 then exponentDigits isZero positive d r
      else if !isZero && positive then fail .numberTooLarge r
      else .ok (none, r.dropWhile Char.isDigit)
    else .ok (some e, c :: r)

/-- The sign of an exponent; whether it is positive. -/
def exponentSign : List Char → Bool × List Char
  | '+' :: r => (true, r)
  | '-' :: r => (false, r)
  | r => (true, r)

/-- An exponent after its mark, and the number with it. -/
def exponent (n : Nat) (start : Int) : Reader Double := fun s =>
  let (positive, s) := exponentSign s
  match s with
  | [] => fail .endInValue []
  | c :: r =>
    if c.isDigit then do
      let (e, r) ← exponentDigits (n == 0) positive (c.toNat - 48) r
      match e with
      | none => return (Double.zero, r)
      | some e => scale n (if positive then start + e else start - e) r
    else fail .invalidNumber s 1

/-- The end of a number: an exponent or nothing. -/
def ending (n : Nat) (e : Int) : Reader Double := fun s =>
  match s with
  | 'e' :: r => exponent n e r
  | 'E' :: r => exponent n e r
  | _ => scale n e s

/-- The digits after the point. -/
def fraction (n : Nat) (e : Int) : Reader Double := fun s =>
  match s with
  | [] => fail .endInValue []
  | c :: _ =>
    if c.isDigit then
      let (m, count, r) := gather n 0 s
      ending m (e - count) (r.dropWhile Char.isDigit)
    else fail .invalidNumber s 1

/-- A number from its gathered whole part and the digits that were not gathered. -/
def afterWhole (n skipped : Nat) : Reader (Option Double) := fun s =>
  match s with
  | '.' :: r => do
    let (x, r) ← fraction n skipped r
    return (some x, r)
  | 'e' :: _ | 'E' :: _ => do
    let (x, r) ← ending n skipped s
    return (some x, r)
  | _ =>
    if skipped = 0 then .ok (none, s)
    else do
      let (x, r) ← scale n skipped s
      return (some x, r)

/-- A whole number with its sign, if it has the sixty-four bit range. The negative zero is a real
number. -/
def signed (negative : Bool) (n : Nat) : Item :=
  if !negative then .whole n
  else if n = 0 ∨ n > Nat.pow 2 63 then .real (Double.ofNat n).neg
  else .whole (-(n : Int))

/-- A number whose sign has been read. -/
def number (negative : Bool) : Reader Item := fun s =>
  match s with
  | [] => fail .endInValue []
  | c :: r =>
    if c.isDigit then
      if c = '0' ∧ r.head?.any Char.isDigit then fail .invalidNumber r 1
      else do
        let (n, _, r) := gather 0 0 s
        let skipped := (r.takeWhile Char.isDigit).length
        let (x, r) ← afterWhole n skipped (r.dropWhile Char.isDigit)
        match x with
        | none => return (signed negative n, r)
        | some x => return (.real (if negative then x.neg else x), r)
    else fail .invalidNumber s 1

end Reader

end Json

end Splice
