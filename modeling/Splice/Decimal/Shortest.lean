import Splice.Decimal.Double

/-!
# Shortest decimals

The decimal with the fewest digits that reads back as a given double; of several such decimals the
one nearest to the double's value, a tie going to the even last digit.
-/
namespace Splice

/-- The value `digits · 10 ^ exponent`. -/
structure Decimal where
  digits : Nat
  exponent : Int
deriving DecidableEq, Repr, Inhabited

namespace Decimal

/-- A fraction of whole numbers. -/
structure Ratio where
  num : Nat
  den : Nat

namespace Ratio

def lt (a b : Ratio) : Bool := decide (a.num * b.den < b.num * a.den)

def le (a b : Ratio) : Bool := decide (a.num * b.den ≤ b.num * a.den)

/-- The fraction times a power of two. -/
def scale (n : Nat) (e : Int) : Ratio :=
  if e ≥ 0 then ⟨n * Nat.pow 2 e.toNat, 1⟩ else ⟨n, Nat.pow 2 (-e).toNat⟩

/-- `n · 10 ^ e`. -/
def tens (n : Nat) (e : Int) : Ratio :=
  if e ≥ 0 then ⟨n * Nat.pow 10 e.toNat, 1⟩ else ⟨n, Nat.pow 10 (-e).toNat⟩

end Ratio

/-- The decimals that read back as one double: those between two bounds, which belong to the
interval exactly when the significand is even. -/
structure Interval where
  low : Ratio
  value : Ratio
  high : Ratio
  closed : Bool

/-- The interval of a finite positive double. -/
def Interval.ofDouble (x : Double) : Interval :=
  let m := x.significand
  let e := x.exponent - 2
  let atPower := m == Nat.pow 2 52 && decide (x.exponent > -1074)
  { low := Ratio.scale (if atPower then 4 * m - 1 else 4 * m - 2) e
    value := Ratio.scale (4 * m) e
    high := Ratio.scale (4 * m + 2) e
    closed := m % 2 == 0 }

def Interval.holds (i : Interval) (r : Ratio) : Bool :=
  if i.closed then i.low.le r && r.le i.high else i.low.lt r && r.lt i.high

/-- The exponent of the leading decimal digit of a positive fraction. -/
def leadingExponent (r : Ratio) : Int :=
  let estimate : Int := ((toString r.num).length : Int) - ((toString r.den).length : Int)
  if (Ratio.tens 1 estimate).le r then estimate else estimate - 1

/-- The best decimal of an interval on the grid of multiples of `10 ^ k`, if the grid has one:
only the two neighbours of the value can be best. -/
def Interval.onGrid (i : Interval) (k : Int) : Option Decimal :=
  let unit := Ratio.tens 1 k
  let below := i.value.num * unit.den / (i.value.den * unit.num)
  let above := below + 1
  let holdsBelow := below != 0 && i.holds (Ratio.tens below k)
  let holdsAbove := i.holds (Ratio.tens above k)
  if holdsBelow && holdsAbove then
    let twice : Ratio := ⟨2 * i.value.num, i.value.den⟩
    let middle := Ratio.tens (below + above) k
    if twice.lt middle then some ⟨below, k⟩
    else if middle.lt twice then some ⟨above, k⟩
    else if below % 2 = 0 then some ⟨below, k⟩
    else some ⟨above, k⟩
  else if holdsBelow then some ⟨below, k⟩
  else if holdsAbove then some ⟨above, k⟩
  else none

/-- Tries grids from coarse to fine. -/
def Interval.search (i : Interval) (leading : Int) : (tries : Nat) → (finer : Nat) → Option Decimal
  | 0, _ => none
  | tries + 1, finer =>
    match i.onGrid (leading - (finer : Int)) with
    | some d => some d
    | none => i.search leading tries (finer + 1)

/-- Drops trailing zeros of the digits. -/
def trim (d : Decimal) : Nat → Decimal
  | 0 => d
  | fuel + 1 =>
    if d.digits ≠ 0 ∧ d.digits % 10 = 0 then
      trim ⟨d.digits / 10, d.exponent + 1⟩ fuel
    else d

/-- The shortest decimal of a finite non-negative double. Seventeen digits always suffice. -/
def shortest (x : Double) : Decimal :=
  if x.significand = 0 then ⟨0, 0⟩
  else
    let i := Interval.ofDouble x
    match i.search (leadingExponent i.value) 18 0 with
    | some d => d.trim 20
    | none => ⟨0, 0⟩

/-- The digits as text. -/
def digitText (d : Decimal) : String := toString d.digits

/-- The place of the decimal point, counted from the first digit. -/
def point (d : Decimal) : Int := ((digitText d).length : Int) + d.exponent

end Decimal

end Splice
