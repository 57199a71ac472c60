import Stencil.Value.Collection

/-! # Slices

The stretch of a collection that a loop runs over.  Lists, objects as lists of pairs and host
objects with items are cut; a range is cut without being written out; a text that is not empty is
its own single item, and nothing else has items.

* `length_of_range`: how long a stretch of a range is. -/

namespace Stencil

/-- The members that a loop runs over, by index. -/
inductive Slice where
  | items (items : Array Value)
  /-- `length` integers from `first` on. -/
  | range (first : Int) (length : Nat)

namespace Slice

/-- How many members there are. -/
def length : Slice → Nat
  | items xs => xs.size
  | range _ length => length

/-- The member at an index, nil beyond the end. -/
def get : Slice → Nat → Value
  | items xs, index => (xs[index]?).getD .nil
  | range first _, index => .int (Int64.ofInt (first + index))

/-- The items from `start` on and before `stop`. -/
def cut {α : Type} (start : Nat) (stop : Option Nat) (xs : List α) : List α :=
  (xs.take (stop.getD xs.length)).drop start

/-- The members of a collection from the index `start` on and before `stop`. -/
def of (start : Nat) (stop : Option Nat) : Value → Slice
  | .range first last =>
    let length := rangeLength first last
    -- Both ends are moved into the range, so the difference is what is left of it.
    let stop := min (stop.getD length) length
    let start := min start stop
    range (first.toInt + start) (stop - start)
  | .array xs => items (cut start stop xs).toArray
  | .object entries => items (cut start stop (entries.map Value.ofEntry)).toArray
  | .drop d => items (cut start stop (d.items?.getD [])).toArray
  | .str "" => items #[]
  | v@(.str _) => items (cut start stop [v]).toArray
  | _ => items #[]

/-- All members of a collection, nothing for values that are none.  Here texts are no collections,
and neither are host objects without items. -/
def all? : Value → Option Slice
  | .array xs => some (items xs.toArray)
  | .object entries => some (items (entries.map Value.ofEntry).toArray)
  | .range first last => some (range first.toInt (rangeLength first last))
  | .drop d => d.items?.map fun xs => items xs.toArray
  | _ => none

theorem length_cut {α : Type} (start : Nat) (stop : Option Nat) (xs : List α) :
    (cut start stop xs).length = min (stop.getD xs.length) xs.length - start := by
  simp [cut, List.length_drop, List.length_take]

/-- A stretch of a range has as many members as the same stretch of a list of the range's length. -/
theorem length_of_range (start : Nat) (stop : Option Nat) (first last : Int64) :
    (of start stop (.range first last)).length
      = min (stop.getD (rangeLength first last)) (rangeLength first last) - start := by
  simp only [of, length]
  omega

end Slice

end Stencil
