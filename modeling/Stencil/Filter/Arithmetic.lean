import Stencil.Filter
import Stencil.Value.Order

/-! # Filters on numbers

Arithmetic on integers is exact as long as the result, and everything on the way to it, is a
template integer; otherwise, and with a floating point operand, it is floating point arithmetic.
Division and remainder of integers go to the floor.

* `floorQuotient?_eq`, `floorRemainder?_eq`: where they are defined, they are floor division and its
  remainder. -/

namespace Stencil.Filter

/-- An operation on integers where it has an integer result, and on floating point numbers else. -/
def calculate (onInts : Int → Int → Option Int64) (onFloats : Float → Float → Float)
    (a b : Number) : Number :=
  match a, b with
  | .int x, .int y =>
    match onInts x.toInt y.toInt with
    | some n => .int n
    | none => .float (onFloats a.toFloat b.toFloat)
  | _, _ => .float (onFloats a.toFloat b.toFloat)

/-- The quotient of two integers, rounded to the floor: the quotient without its fraction, and one
less where that lies above. -/
def floorQuotient? (a b : Int) : Option Int64 :=
  if b = 0 then none
  else do
    let quotient ← Decimal.fit? (Int.tdiv a b)
    -- A negative quotient is rounded up by cutting off its fraction.
    if Int.tmod a b ≠ 0 ∧ ¬(a < 0 ↔ b < 0) then Decimal.fit? (quotient.toInt - 1)
    else return quotient

/-- What floor division leaves over.  Quotient and product have to be integers too. -/
def floorRemainder? (a b : Int) : Option Int64 := do
  let quotient ← floorQuotient? a b
  let product ← Decimal.fit? (b * quotient.toInt)
  Decimal.fit? (a - product.toInt)

/-- Cutting off the fraction and rounding to the floor differ by one where the signs differ and
something is left over. -/
theorem fdiv_eq_tdiv_sub {a b : Int} (hb : b ≠ 0) :
    Int.fdiv a b = Int.tdiv a b - if Int.tmod a b ≠ 0 ∧ ¬(a < 0 ↔ b < 0) then 1 else 0 := by
  rw [Int.fdiv_eq_tdiv]
  simp only [Int.dvd_iff_tmod_eq_zero]
  rcases Int.lt_or_gt_of_ne hb with hneg | hpos
  · rw [Int.sign_eq_neg_one_of_neg hneg]
    split <;> split <;> omega
  · rw [Int.sign_eq_one_of_pos hpos]
    split <;> split <;> omega

theorem floorQuotient?_eq {a b : Int} {n : Int64} (h : floorQuotient? a b = some n) :
    n.toInt = Int.fdiv a b := by
  unfold floorQuotient? at h
  split at h
  · exact nomatch h
  · rename_i hb
    obtain ⟨quotient, hquotient, h⟩ := Option.bind_eq_some_iff.mp h
    have hcut := Decimal.toInt_of_fit?_eq_some hquotient
    rw [fdiv_eq_tdiv_sub hb]
    split at h
    · rename_i hround
      rw [Decimal.toInt_of_fit?_eq_some h, hcut, if_pos hround]
    · rename_i hround
      cases h
      rw [hcut, if_neg hround, Int.sub_zero]

theorem floorRemainder?_eq {a b : Int} {n : Int64} (h : floorRemainder? a b = some n) :
    n.toInt = Int.fmod a b := by
  simp only [floorRemainder?, Option.bind_eq_bind, Option.bind_eq_some_iff] at h
  obtain ⟨quotient, hq, product, hp, hn⟩ := h
  rw [Decimal.toInt_of_fit?_eq_some hn, Decimal.toInt_of_fit?_eq_some hp, floorQuotient?_eq hq,
    Int.fmod_def]

/-- A filter that combines its input with its argument. -/
def binary (onInts : Int → Int → Option Int64) (onFloats : Float → Float → Float) : Filter :=
  ⟨1, 0, fun _ input args => do
    let a ← input.number
    let b ← (args.arg 0).number
    return (calculate onInts onFloats a b).toValue⟩

/-- A filter that divides: an integer by the integer zero is an error. -/
def dividing (onInts : Int → Int → Option Int64) (onFloats : Float → Float → Float) : Filter :=
  ⟨1, 0, fun _ input args => do
    let a ← input.number
    let b ← (args.arg 0).number
    quotient a b⟩
where
  /-- The result for two numbers. -/
  quotient : Number → Number → Except Error Value
    | .int _, .int 0 => .error .dividedByZero
    | a, b => .ok (calculate onInts onFloats a b).toValue

def plus : Filter := binary (fun a b => Decimal.fit? (a + b)) (· + ·)

def minus : Filter := binary (fun a b => Decimal.fit? (a - b)) (· - ·)

def times : Filter := binary (fun a b => Decimal.fit? (a * b)) (· * ·)

def dividedBy : Filter := dividing floorQuotient? (· / ·)

def modulo : Filter := dividing floorRemainder? fun a b => a - b * (a / b).floor

/-- The magnitude of a number. -/
def abs : Filter :=
  ⟨0, 0, fun _ input _ => magnitude <$> input.number⟩
where
  /-- The magnitude as a value. -/
  magnitude : Number → Value
    | .int n =>
      -- The smallest integer has no opposite.
      match Decimal.fit? n.toInt.natAbs with
      | some m => .int m
      | none => .float n.toFloat.abs
    | .float x => .float x.abs

/-- The number rounded to an integer by `f`; an integer stays. -/
def toWhole (f : Float → Float) : Number → Value
  | .int n => .int n
  | .float x => .int (f x).toInt64

def ceil : Filter := ⟨0, 0, fun _ input _ => toWhole Float.ceil <$> input.number⟩

def floor : Filter := ⟨0, 0, fun _ input _ => toWhole Float.floor <$> input.number⟩

/-- The product of `result` and the power `base ^ n`, by squaring; `bits` bounds the number of
binary digits of `n`. -/
def powerFrom : (bits : Nat) → (result base : Float) → Nat → Float
  | 0, result, _, _ => result
  | bits + 1, result, base, n =>
    let result := if n % 2 = 1 then result * base else result
    if n / 2 = 0 then result else powerFrom bits result (base * base) (n / 2)

/-- A power of ten. -/
def powerOfTen (n : Int) : Float :=
  let power := powerFrom 32 1 10 n.natAbs
  if n < 0 then 1 / power else power

/-- The number of decimal places to round to; one that no 32-bit integer holds counts as the largest
of them. -/
def decimalPlaces (n : Int64) : Int :=
  if -0x80000000 ≤ n.toInt ∧ n.toInt < 0x80000000 then n.toInt else 0x7FFFFFFF

/-- The number rounded to an integer, or to as many decimal places as asked for; a half goes away
from zero. -/
def round : Filter :=
  ⟨0, 1, fun _ input args => do
    let digits ←
      match args.positional[0]? with
      | some v => v.toInteger
      | none => pure 0
    let n ← input.number
    if digits = 0 then return toWhole Float.round n
    else
      -- With places the result has a fraction part, even for an integer.
      let factor := powerOfTen (decimalPlaces digits)
      return .float ((n.toFloat * factor).round / factor)⟩

/-- The first number unless its order to the second is `worse`. -/
def unlessOrdered (worse : Ordering) (a b : Number) : Number :=
  if a.toValue.order? b.toValue = some worse then b else a

/-- The larger of input and argument. -/
def atLeast : Filter :=
  ⟨1, 0, fun _ input args => do
    return (unlessOrdered .lt (← input.number) (← (args.arg 0).number)).toValue⟩

/-- The smaller of input and argument. -/
def atMost : Filter :=
  ⟨1, 0, fun _ input args => do
    return (unlessOrdered .gt (← input.number) (← (args.arg 0).number)).toValue⟩

end Stencil.Filter
