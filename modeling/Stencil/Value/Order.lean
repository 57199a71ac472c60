import Stencil.Value

/-! # Order of values

Numbers are ordered with numbers and texts with texts, by code points; nothing else has an order,
and neither has the float that is no number.

* `order?_int`, `order?_str`: the order is that of the integers and of the texts. -/

namespace Stencil

/-- The order of two floating point numbers, if they have one. -/
def floatOrder? (x y : Float) : Option Ordering :=
  if x < y then some .lt
  else if y < x then some .gt
  else if x == y then some .eq
  else none

namespace Value

/-- The number that a value is. -/
def asNumber? : Value → Option Number
  | int n => some (.int n)
  | float x => some (.float x)
  | _ => none

/-- The order of two values, if they have one. -/
def order? : Value → Value → Option Ordering
  | int a, int b => some (compare a b)
  | str a, str b => some (compare a b)
  | a, b =>
    match a.asNumber?, b.asNumber? with
    | some x, some y => floatOrder? x.toFloat y.toFloat
    | _, _ => none

/-- The error of comparing two values that have no order.  Small values on the right are shown
themselves, all others by their type. -/
def incomparable (left right : Value) : Error :=
  let shown :=
    match right with
    | nil | bool _ | int _ | float _ => right.inspect
    | _ => right.typeName
  .incomparable left.typeName shown

theorem order?_int (a b : Int64) : order? (int a) (int b) = some (compare a b) := rfl

theorem order?_str (a b : String) : order? (str a) (str b) = some (compare a b) := rfl

end Value

end Stencil
