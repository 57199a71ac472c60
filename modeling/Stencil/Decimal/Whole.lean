/-! # Whole numbers

Template integers are signed 64-bit words.  This file holds the arithmetic they are built on: a
whole number is turned into a word only when it fits, or is moved to the nearest end of the range,
and a decimal is read with an optional sign, at least one digit and nothing else.

* `toInt_of_fit?_eq_some`: a word made from a number stands for that number.
* `toInt_saturate`: saturation keeps a number that fits. -/

namespace Stencil.Decimal

/-- The largest template integer. -/
def maxWhole : Int := 0x7FFFFFFFFFFFFFFF

/-- The smallest template integer. -/
def minWhole : Int := -0x8000000000000000

/-- The number as a template integer, if it is one. -/
def fit? (n : Int) : Option Int64 :=
  if minWhole ≤ n ∧ n ≤ maxWhole then some (Int64.ofInt n) else none

/-- The template integer nearest to the number. -/
def saturate (n : Int) : Int64 :=
  Int64.ofInt (max minWhole (min maxWhole n))

theorem toInt_of_fit?_eq_some {n : Int} {w : Int64} (h : fit? n = some w) : w.toInt = n := by
  unfold fit? at h
  split at h
  · rename_i hn
    simp only [minWhole, maxWhole] at hn
    cases h
    exact Int64.toInt_ofInt_of_le (by omega) (by omega)
  · exact nomatch h

theorem fit?_toInt (w : Int64) : fit? w.toInt = some w := by
  have h1 := Int64.le_toInt w
  have h2 := Int64.toInt_lt w
  have h : minWhole ≤ w.toInt ∧ w.toInt ≤ maxWhole := by
    simp only [minWhole, maxWhole]; omega
  simp [fit?, h]

/-- A template integer that is below zero counts as zero. -/
theorem toNat_toInt_le (n : Int64) : ((n.toInt.toNat : Nat) : Int) ≤ maxWhole := by
  have hn := n.toInt_lt
  simp only [maxWhole]
  omega

theorem toInt_saturate (n : Int) : (saturate n).toInt = max minWhole (min maxWhole n) := by
  simp only [saturate, minWhole, maxWhole]
  exact Int64.toInt_ofInt_of_le (by omega) (by omega)

/-- The value of a digit, if the character is one. -/
def digit? (c : Char) : Option Nat :=
  if c.isDigit then some (c.toNat - 48) else none

/-- The number written by decimal digits, continuing a number `n` whose digits were read before;
nothing if another character comes up. -/
def readDigits (n : Nat) : List Char → Option Nat
  | [] => some n
  | c :: cs =>
    match digit? c with
    | some d => readDigits (10 * n + d) cs
    | none => none

/-- The number written by at least one decimal digit. -/
def readNat? : List Char → Option Nat
  | [] => none
  | cs => readDigits 0 cs

/-- The integer written by an optional sign and decimal digits. -/
def readInt? : List Char → Option Int
  | '+' :: cs => (readNat? cs).map Int.ofNat
  | '-' :: cs => (readNat? cs).map fun n => -(n : Int)
  | cs => (readNat? cs).map Int.ofNat

/-- The template integer written by the text, if it is one. -/
def readWhole? (s : String) : Option Int64 :=
  (readInt? s.toList).bind fit?

/-- A count as a template integer; one that is too large becomes the largest. -/
def ofCount (n : Nat) : Int64 :=
  saturate n

end Stencil.Decimal
