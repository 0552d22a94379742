/-!
# Double-precision numbers

A number is held as its 64-bit pattern: sign, eleven exponent bits, fifty-two fraction bits. All
rounding is done on whole numbers: `Double.ofRatio` picks the pattern nearest to a quotient, a tie
going to the even significand.
-/
namespace Splice

/-- A double-precision number, by its bits. -/
structure Double where
  bits : UInt64
deriving DecidableEq, Repr, Inhabited

namespace Double

def exponentField (x : Double) : Nat := ((x.bits >>> 52) &&& 0x7ff).toNat

def fraction (x : Double) : Nat := (x.bits &&& 0xfffffffffffff).toNat

/-- The sign bit; also set for the negative zero. -/
def isNegative (x : Double) : Bool := x.bits >>> 63 != 0

def isNaN (x : Double) : Bool := x.exponentField == 2047 && x.fraction != 0

def isInfinite (x : Double) : Bool := x.exponentField == 2047 && x.fraction == 0

/-- The same number with the sign bit cleared. -/
def abs (x : Double) : Double := ⟨x.bits &&& 0x7fffffffffffffff⟩

def neg (x : Double) : Double := ⟨x.bits ^^^ 0x8000000000000000⟩

def infinity : Double := ⟨0x7ff0000000000000⟩

def zero : Double := ⟨0⟩

/-- The whole number `m` of the value `m · 2 ^ exponent` of a finite number. -/
def significand (x : Double) : Nat :=
  if x.exponentField = 0 then x.fraction else Nat.pow 2 52 + x.fraction

def exponent (x : Double) : Int :=
  if x.exponentField = 0 then -1074 else (x.exponentField : Int) - 1075

/-- The quotient rounded to the nearest whole number, a half to the even one. -/
def roundQuotient (num den : Nat) : Nat :=
  let q := num / den
  let r := num % den
  if 2 * r < den then q
  else if 2 * r > den then q + 1
  else if q % 2 = 0 then q else q + 1

/-- The pattern of `m · 2 ^ e` for `m` of at most fifty-three bits and `e` at least the least
exponent; infinity when the value is too large. -/
def pack (m : Nat) (e : Int) : Double :=
  let (m, e) := if m = Nat.pow 2 53 then (Nat.pow 2 52, e + 1) else (m, e)
  if e > 971 then infinity
  else if m < Nat.pow 2 52 then ⟨UInt64.ofNat m⟩
  else ⟨UInt64.ofNat ((e + 1075).toNat * Nat.pow 2 52 + (m - Nat.pow 2 52))⟩

/-- The non-negative double nearest to `num / den`. -/
def ofRatio (num den : Nat) : Double :=
  if num = 0 ∨ den = 0 then zero
  else
    let estimate : Int := (Nat.log2 num : Int) - (Nat.log2 den : Int) - 52
    let scaled (e : Int) : Nat × Nat :=
      if e ≥ 0 then (num, den * Nat.pow 2 e.toNat) else (num * Nat.pow 2 (-e).toNat, den)
    let (a, b) := scaled estimate
    let e := if a < Nat.pow 2 52 * b then estimate - 1 else estimate
    let e := if e < -1074 then -1074 else e
    let (a, b) := scaled e
    pack (roundQuotient a b) e

def ofNat (n : Nat) : Double := ofRatio n 1

/-- The non-negative double nearest to `digits · 10 ^ exponent`. Values beyond the range are
recognised by their number of digits alone, so huge exponents cost nothing. -/
def ofDecimal (digits : Nat) (exponent : Int) : Double :=
  let size : Int := (toString digits).length
  if digits = 0 ∨ exponent + size < -340 then zero
  else if exponent + size > 320 then infinity
  else if exponent ≥ 0 then ofRatio (digits * Nat.pow 10 exponent.toNat) 1
  else ofRatio digits (Nat.pow 10 (-exponent).toNat)

/-- The ratio of whole numbers that a finite non-negative number stands for. -/
def toRatio (x : Double) : Nat × Nat :=
  if x.exponent ≥ 0 then (x.significand * Nat.pow 2 x.exponent.toNat, 1)
  else (x.significand, Nat.pow 2 (-x.exponent).toNat)

/-- The rounded product of two finite non-negative numbers. -/
def mul (x y : Double) : Double :=
  let (a, b) := x.toRatio
  let (c, d) := y.toRatio
  ofRatio (a * c) (b * d)

/-- The rounded quotient of two finite non-negative numbers. -/
def div (x y : Double) : Double :=
  let (a, b) := x.toRatio
  let (c, d) := y.toRatio
  ofRatio (a * d) (b * c)

/-- A digit after the digits of a non-negative number, rounded once. -/
def appendDigit (base : Nat) (x : Double) (digit : Nat) : Double :=
  if x.isInfinite then x
  else
    let (a, b) := x.toRatio
    ofRatio (a * base + digit * b) b

/-- A finite number without fractional part. -/
def isWhole (x : Double) : Bool :=
  let (a, b) := x.toRatio
  a % b == 0

/-- The whole part of a finite non-negative number. -/
def floor (x : Double) : Nat :=
  let (a, b) := x.toRatio
  a / b

end Double

end Splice
