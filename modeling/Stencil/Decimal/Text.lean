import Stencil.Decimal.Whole
import Stencil.Decimal.Shortest

/-! # Floating point numbers as text

How template numbers with a fraction are written and read.  Written, a number is positional, never
in scientific form: one decimal place if it is whole and below `10 ^ 16`, else the fewest digits
that read back.  Read, it may have a sign, digits on either side of the point, an exponent, or be
one of the words for infinity and for no number. -/

namespace Stencil.Decimal

/-- The positional form of `digits * 10 ^ exponent`, without trailing zeros after the point. -/
def positional (digits : Nat) (exponent : Int) : String :=
  let shown := Nat.toDigits 10 digits
  if 0 ≤ exponent then String.ofList (shown ++ List.replicate exponent.toNat '0')
  else
    let places := (-exponent).toNat
    -- At least one digit stands before the point.
    let padded := List.replicate (places + 1 - shown.length) '0' ++ shown
    let whole := padded.take (padded.length - places)
    let fraction := padded.drop (padded.length - places)
    let kept := (fraction.reverse.dropWhile (· == '0')).reverse
    if kept.isEmpty then String.ofList whole
    else String.ofList (whole ++ '.' :: kept)

/-- The text of a floating point number. -/
def floatText (x : Float) : String :=
  if x.isNaN then "NaN"
  else if x.isInf then (if isNegative x then "-Infinity" else "Infinity")
  else
    let sign := if isNegative x then "-" else ""
    let (m, q) := magnitude x
    if m = 0 then sign ++ "0.0"
    else
      let whole := if 0 ≤ q then some (m <<< q.toNat)
        else if m % (1 <<< (-q).toNat) = 0 then some (m >>> (-q).toNat) else none
      match whole with
      | some n =>
        if n < tenTo 16 then sign ++ toString n ++ ".0"
        else
          let (digits, exponent) := shortest m q
          sign ++ positional digits exponent
      | none =>
        let (digits, exponent) := shortest m q
        sign ++ positional digits exponent

/-- The exponent after the digits of a number: none, or an `e`, an optional sign and digits. -/
def readExponent? : List Char → Option Int
  | [] => some 0
  | c :: cs => if c = 'e' ∨ c = 'E' then readInt? cs else none

/-- A number without its sign: digits on at least one side of an optional point, then the
exponent. -/
def readUnsigned? (negative : Bool) (cs : List Char) : Option Float :=
  let whole := cs.takeWhile Char.isDigit
  let afterWhole := cs.dropWhile Char.isDigit
  let (fraction, rest) :=
    match afterWhole with
    | '.' :: tail => (tail.takeWhile Char.isDigit, tail.dropWhile Char.isDigit)
    | rest => ([], rest)
  match readNat? (whole ++ fraction), readExponent? rest with
  | some digits, some exponent => some (ofScientific negative digits (exponent - fraction.length))
  | _, _ => none

/-- The number that the text stands for, words for infinity and for no number included, in any case
of the letters. -/
def readFloat? (s : String) : Option Float :=
  let (negative, cs) :=
    match s.toList with
    | '-' :: cs => (true, cs)
    | '+' :: cs => (false, cs)
    | cs => (false, cs)
  let word := String.ofList (cs.map Char.toLower)
  if word = "inf" ∨ word = "infinity" then
    some (Float.ofBits (UInt64.ofNat (infinityBits + if negative then signBit else 0)))
  else if word = "nan" then some (0.0 / 0.0)
  else readUnsigned? negative cs

end Stencil.Decimal
