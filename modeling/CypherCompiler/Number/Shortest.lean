import CypherCompiler.Number.Binary64

namespace CypherCompiler

namespace Binary64

-- A decimal magnitude `digits * 10 ^ exponent`.
structure Decimal where
  digits : Nat
  exponent : Int
  deriving DecidableEq, Repr

-- The reals that round to a number, as bounds on a common denominator. The lower half-gap
-- shrinks where the number opens a new binade; the ends belong to the interval exactly when
-- the significand is even.
structure Interval where
  low : Nat
  value : Nat
  high : Nat
  den : Nat
  closed : Bool

def interval (x : Binary64) : Interval :=
  let opensBinade := x.code.val % binadeSize == 0 && binadeSize < x.code.val
  let below := if opensBinade then 1 else 2
  let m := 4 * x.significand
  let up := twoTo x.exponent.toNat
  { low := (m - below) * up
    value := m * up
    high := (m + 2) * up
    den := 4 * twoTo (-x.exponent).toNat
    closed := x.significand % 2 == 0 }

namespace Interval

-- Whether `digits * 10 ^ exponent` lies in the interval.
def contains (i : Interval) (d : Decimal) : Bool :=
  let point := d.digits * tenTo d.exponent.toNat * i.den
  let unit := tenTo (-d.exponent).toNat
  if i.closed then i.low * unit ≤ point && point ≤ i.high * unit
  else i.low * unit < point && point < i.high * unit

-- Distance of a decimal from the value, on the denominator of both.
def distance (i : Interval) (d : Decimal) : Nat :=
  let point := d.digits * tenTo d.exponent.toNat * i.den
  let value := i.value * tenTo (-d.exponent).toNat
  (point - value) + (value - point)

-- The exponent of the leading decimal digit of the value.
def leading (i : Interval) : Int :=
  if i.den ≤ i.value then ((Nat.toDigits 10 (i.value / i.den)).length : Int) - 1
  else -((Nat.toDigits 10 ((i.den + i.value - 1) / i.value - 1)).length : Int)

-- The value's neighbours among the decimals of `count` significant digits that fall into the
-- interval, the nearer one first chosen and the even one of two equally near.
def onGrid? (i : Interval) (count : Nat) : Option Decimal :=
  let exponent := i.leading + 1 - count
  let floor := i.value * tenTo (-exponent).toNat / (i.den * tenTo exponent.toNat)
  let below : Decimal := ⟨floor, exponent⟩
  let above : Decimal := ⟨floor + 1, exponent⟩
  match i.contains below, i.contains above with
  | true, true =>
    if i.distance below < i.distance above then some below
    else if i.distance above < i.distance below then some above
    else if floor % 2 == 0 then some below else some above
  | true, false => some below
  | false, true => some above
  | false, false => none

end Interval

-- The fewest decimal digits that read back as the number. Seventeen always suffice.
def shortest (x : Binary64) : Decimal :=
  if x.isZero then ⟨0, 0⟩
  else ((List.range' 1 17).findSome? x.interval.onGrid?).getD ⟨0, 0⟩

end Binary64

end CypherCompiler
