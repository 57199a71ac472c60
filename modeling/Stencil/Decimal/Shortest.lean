import Stencil.Decimal.Double

/-! # The fewest digits that read back

Of all decimals that read back as a given double, `shortest` finds one with the fewest digits, and
among those the one nearest to the double.  The decimals that read back form an interval around it,
which has its ends when the double's significand is even.  A grid of decimals with `n` digits has a
point in that interval exactly when one of the two points around the double lies in it, so it is
enough to look at those two, for one digit, two digits and so on. -/

namespace Stencil.Decimal

/-- A positive fraction with the interval of the fractions that round to it, all over one
denominator. -/
structure Interval where
  low : Nat
  value : Nat
  high : Nat
  denominator : Nat
  /-- Whether the ends round to the value too. -/
  closed : Bool

/-- The interval of the fractions that round to the double `m * 2 ^ q`.  Below a power of two the
doubles lie twice as dense, which moves the lower end closer. -/
def Interval.ofDouble (m : Nat) (q : Int) : Interval :=
  -- All three are counted in quarters of the last bit: the ends lie half a bit away.
  let scale := 1 <<< (q - 2).toNat
  let gap := if m = hiddenBit ∧ -1074 < q then 1 else 2
  { low := (4 * m - gap) * scale
    value := 4 * m * scale
    high := (4 * m + 2) * scale
    denominator := 1 <<< (2 - q).toNat
    closed := m % 2 == 0 }

/-- Whether `digits * 10 ^ exponent` lies in the interval. -/
def Interval.holds (i : Interval) (digits : Nat) (exponent : Int) : Bool :=
  let point := digits * tenTo exponent.toNat * i.denominator
  let low := i.low * tenTo (-exponent).toNat
  let high := i.high * tenTo (-exponent).toNat
  if i.closed then low ≤ point && point ≤ high else low < point && point < high

/-- Whether the middle between `digits` and `digits + 1` times `10 ^ exponent` is at most the
value. -/
def Interval.middleAtMost (i : Interval) (digits : Nat) (exponent : Int) : Bool :=
  (2 * digits + 1) * tenTo exponent.toNat * i.denominator
    ≤ 2 * i.value * tenTo (-exponent).toNat

/-- The decimal exponent of the value's first digit, or one less. -/
def Interval.firstDigit (i : Interval) : Int :=
  if i.denominator ≤ i.value then
    ((Nat.toDigits 10 (i.value / i.denominator)).length : Int) - 1
  else -((Nat.toDigits 10 (i.denominator / i.value)).length : Int)

/-- The largest number of steps of `10 ^ exponent` that is at most the value. -/
def Interval.below (i : Interval) (exponent : Int) : Nat :=
  i.value * tenTo (-exponent).toNat / (i.denominator * tenTo exponent.toNat)

/-- Looks for a decimal in the interval on ever finer grids, `fuel` of them, from the one with
steps of `10 ^ exponent` on.  Where both neighbours of the value lie in the interval, the nearer
one is taken, and the upper one if they are equally near. -/
def Interval.search (i : Interval) : Nat → Int → Nat × Int
  | 0, exponent => (i.below exponent, exponent)
  | fuel + 1, exponent =>
    let below := i.below exponent
    match i.holds below exponent, i.holds (below + 1) exponent with
    | true, true => (if i.middleAtMost below exponent then below + 1 else below, exponent)
    | true, false => (below, exponent)
    | false, true => (below + 1, exponent)
    | false, false => i.search fuel (exponent - 1)

/-- The fewest digits that read back as the double `m * 2 ^ q`, and the power of ten that they
count. Seventeen digits always do. -/
def shortest (m : Nat) (q : Int) : Nat × Int :=
  let i := Interval.ofDouble m q
  i.search 17 i.firstDigit

end Stencil.Decimal
