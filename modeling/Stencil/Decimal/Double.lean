/-! # Double precision numbers

A finite double is `m * 2 ^ q` with a whole `m` below `2 ^ 53` and `q` of at least `-1074`.  This
file takes the bits of a double apart and finds the double nearest to a fraction, a half going to
the even neighbour.  The bits of the nearest double are one sum: adjacent doubles have adjacent
bits, so a rounding that carries into the next binade, or past the largest double, needs no case
of its own. -/

namespace Stencil.Decimal

/-- The bits of positive infinity. -/
def infinityBits : Nat := 0x7FF0000000000000

/-- The bit that is set in negative numbers. -/
def signBit : Nat := 1 <<< 63

/-- The leading bit of a normal significand, which is not stored. -/
def hiddenBit : Nat := 1 <<< 52

/-- A power of ten. -/
def tenTo (n : Nat) : Nat :=
  Nat.pow 10 n

/-- The quotient of two numbers rounded to the nearest whole number, a half to the even one. -/
def divEven (a b : Nat) : Nat :=
  let quotient := a / b
  let rest := a % b
  if 2 * rest < b then quotient
  else if b < 2 * rest then quotient + 1
  else quotient + quotient % 2

/-- The binary exponent at which the fraction `a / b` has a whole part of at least 53 bits, as far
as doubles reach: the exponent of its last significant bit. -/
def lastBit (a b : Nat) : Int :=
  -- `a / b` lies between the powers of two around `2 ^ (log2 a - log2 b)`: the estimate is the
  -- exponent or one too high.
  let estimate : Int := (a.log2 : Int) - b.log2 - 52
  let exponent :=
    if 0 ≤ estimate then
      if a < (b <<< estimate.toNat) * hiddenBit then estimate - 1 else estimate
    else
      if (a <<< (-estimate).toNat) < b * hiddenBit then estimate - 1 else estimate
  max exponent (-1074)

/-- The bits of the double nearest to the fraction `a / b`. -/
def nearestBits (a b : Nat) : Nat :=
  if a = 0 then 0
  else
    let exponent := lastBit a b
    let significand :=
      if 0 ≤ exponent then divEven a (b <<< exponent.toNat)
      else divEven (a <<< (-exponent).toNat) b
    -- The leading bit of a normal significand counts as one step of the biased exponent.
    min infinityBits ((exponent + 1074).toNat * hiddenBit + significand)

/-- The double nearest to `a / b`, or to its opposite. -/
def nearest (negative : Bool) (a b : Nat) : Float :=
  Float.ofBits (UInt64.ofNat (nearestBits a b + if negative then signBit else 0))

/-- The double nearest to `± digits * 10 ^ exponent`.  Exponents far outside the range of doubles
are settled by the number of digits alone, so that no power of ten grows beyond all bounds. -/
def ofScientific (negative : Bool) (digits : Nat) (exponent : Int) : Float :=
  let magnitude := (Nat.toDigits 10 digits).length + exponent
  if digits = 0 ∨ magnitude < -400 then nearest negative 0 1
  else if 400 < magnitude then
    Float.ofBits (UInt64.ofNat (infinityBits + if negative then signBit else 0))
  else if 0 ≤ exponent then nearest negative (digits * tenTo exponent.toNat) 1
  else nearest negative digits (tenTo (-exponent).toNat)

/-- The magnitude of a finite double as `(m, q)`, standing for `m * 2 ^ q`. -/
def magnitude (x : Float) : Nat × Int :=
  let bits := x.toBits.toNat % signBit
  let biased : Nat := bits / hiddenBit
  let fraction : Nat := bits % hiddenBit
  if biased = 0 then (fraction, -1074) else (fraction + hiddenBit, (biased : Int) - 1075)

/-- Whether the sign bit is set. -/
def isNegative (x : Float) : Bool :=
  x.toBits.toNat / signBit == 1

end Stencil.Decimal
