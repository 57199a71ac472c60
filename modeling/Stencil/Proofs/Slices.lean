import Stencil.Render.Slice

/-!
# What a slice holds

A loop does not write out what it runs over: a range is cut by moving its ends, anything else by
copying. Either way its members are those of one list, cut in the same way: the items of the
collection.

## Key definitions

- `Value.loopItems`: the items of a collection
- `Slice.toList`: the members of a slice, in order

## Key results

- `Slice.toList_of`: a slice holds the items that its ends say
-/

namespace Stencil

/-- The items of a collection that a loop runs over. No more of a range are counted than the largest
integer says. -/
def Value.loopItems : Value → List Value
  | .array items => items
  | .object entries => entries.map ofEntry
  | .range first last => (rangeItems first last).take Decimal.maxWhole.toNat
  | .drop d => d.items?.getD []
  | .str text => if text = "" then [] else [.str text]
  | .nil | .bool _ | .int _ | .float _ => []

/-- A range that is not too long has all its integers for items. -/
theorem Value.loopItems_range {first last : Int64}
    (h : last.toInt - first.toInt + 1 ≤ Decimal.maxWhole) :
    (Value.range first last).loopItems = rangeItems first last := by
  unfold loopItems
  refine List.take_of_length_le ?_
  unfold rangeItems
  rw [List.length_map, List.length_range]
  omega

theorem Value.length_loopItems_range (first last : Int64) :
    (Value.range first last).loopItems.length = rangeLength first last := by
  unfold loopItems rangeItems rangeLength
  rw [List.length_take, List.length_map, List.length_range, Nat.min_comm]

namespace Slice

/-- The members of a slice, in order. -/
def toList (slice : Slice) : List Value :=
  (List.range slice.length).map slice.get

@[simp] theorem length_toList (slice : Slice) : slice.toList.length = slice.length := by
  simp [toList]

theorem getElem?_toList {slice : Slice} {index : Nat} (h : index < slice.length) :
    slice.toList[index]? = some (slice.get index) := by
  simp [toList, h]

/-- The same members from the last one to the first. -/
theorem getElem?_reverse_toList {slice : Slice} {index : Nat} (h : index < slice.length) :
    slice.toList.reverse[index]? = some (slice.get (slice.length - 1 - index)) := by
  rw [List.getElem?_reverse (by rw [length_toList]; exact h), length_toList]
  exact getElem?_toList (by omega)

/-- A slice that was copied. -/
theorem toList_items (xs : Array Value) : (items xs).toList = xs.toList := by
  apply List.ext_getElem
  · simp [length]
  · intro index h _
    have hindex : index < xs.size := by simpa [length] using h
    simp [toList, get, hindex]

theorem cut_nil {α : Type} (start : Nat) (stop : Option Nat) :
    cut start stop ([] : List α) = [] := by
  simp [cut]

/-- A range that is cut by moving its ends holds what is left of its items. -/
theorem toList_of_range (start : Nat) (stop : Option Nat) (first last : Int64) :
    (of start stop (.range first last)).toList
      = cut start stop (Value.range first last).loopItems := by
  have hlength := length_of_range start stop first last
  apply List.ext_getElem
  · rw [length_toList, hlength, length_cut, Value.length_loopItems_range]
  · intro index h _
    rw [length_toList, hlength] at h
    have hleft : min start (min (stop.getD (rangeLength first last)) (rangeLength first last))
        = start := by omega
    simp only [toList, List.getElem_map, List.getElem_range, of, get, hleft, cut,
      List.getElem_drop, List.getElem_take, Value.loopItems, rangeItems, Value.int.injEq]
    exact congrArg Int64.ofInt (by omega)

/-- A slice holds the items of the collection from `start` on and before `stop`. -/
theorem toList_of (start : Nat) (stop : Option Nat) (v : Value) :
    (of start stop v).toList = cut start stop v.loopItems := by
  cases v with
  | range first last => exact toList_of_range start stop first last
  | array xs => exact toList_items _
  | object entries => exact toList_items _
  | drop d => exact toList_items _
  -- A text is one item of its own, unless it is empty.
  | str text =>
    by_cases h : text = ""
    · subst h
      rw [Value.loopItems, if_pos rfl, cut_nil]
      rfl
    · rw [Value.loopItems, if_neg h]
      have hof : of start stop (.str text) = items (cut start stop [Value.str text]).toArray := by
        unfold of
        split <;> simp_all
      rw [hof]
      exact toList_items _
  | nil => exact (cut_nil start stop).symm
  | bool b => exact (cut_nil start stop).symm
  | int n => exact (cut_nil start stop).symm
  | float x => exact (cut_nil start stop).symm

/-- How long a slice is: what is left of the items before `stop`. -/
theorem length_of (start : Nat) (stop : Option Nat) (v : Value) :
    (of start stop v).length
      = min (stop.getD v.loopItems.length) v.loopItems.length - start := by
  rw [← length_toList, toList_of, length_cut]

end Slice

end Stencil
