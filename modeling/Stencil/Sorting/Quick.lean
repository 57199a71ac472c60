import Stencil.Sorting.Runs

/-! # Sorting long lists

Stretches that are not sorted are split by a pivot.  What is equal to the pivot is not looked at
again, and after too many bad pivots the stretch is sorted by its runs instead.

* `choosePivot`: an item near the middle, and where it stands.
* `quicksort`: sorts by splitting.
* `sort`: the whole algorithm. -/

namespace Stencil.Sorting

variable {α : Type} (less : Less α)

/-! ## The pivot -/

/-- The middle one of three items. -/
def middle (a b c : α) : Except Error α := do
  let beforeB ← less a b
  let beforeC ← less a c
  if beforeB == beforeC then
    -- The first item is the least or the greatest one, and so the middle one is next to it.
    return if (← less b c) == beforeB then b else c
  else return a

/-- An item near the middle: the middle one of three that stand for stretches near the front, the
middle and the back. -/
def nearMiddle (start : α) (items : List α) : Except Error α :=
  if items.length < 8 then .ok (items.headD start)
  else do
    let eighth := items.length / 8
    let a ← nearMiddle start (items.take eighth)
    let b ← nearMiddle start ((items.drop (4 * eighth)).take eighth)
    let c ← nearMiddle start ((items.drop (7 * eighth)).take eighth)
    middle less a b c
termination_by items.length
decreasing_by all_goals simp only [List.length_take, List.length_drop]; omega

/-- A pivot for a list that starts with `x`, and its place in the list. -/
def choosePivot (x : α) (items : List α) : Except Error (α × Nat) :=
  nearMiddle (fun a b => less a.1 b.1) (x, 0) (x :: items).zipIdx

/-! ## Splitting -/

/-- The items that go left and those that go right, each in their order. -/
def split (goesLeft : α → Except Error Bool) : List α → Except Error (List α × List α)
  | [] => .ok ([], [])
  | x :: items => do
    let left ← goesLeft x
    let (lefts, rights) ← split goesLeft items
    return if left then (x :: lefts, rights) else (lefts, x :: rights)

/-- Splits a list at its item `pivot` at `place`, which is not compared with itself. -/
def splitAround (goesLeft : α → Except Error Bool) (pivotLeft : Bool) (pivot : α) (place : Nat)
    (items : List α) : Except Error (List α × List α) := do
  let (lefts, rights) ← split goesLeft (items.take place)
  let (lefts', rights') ← split goesLeft (items.drop (place + 1))
  return if pivotLeft then (lefts ++ pivot :: lefts', rights ++ rights')
    else (lefts ++ lefts', rights ++ pivot :: rights')

/-- Whether an item is not greater than the pivot that everything here stands behind. -/
def repeats (ancestor : Option α) (pivot : α) : Except Error Bool :=
  match ancestor with
  | none => .ok false
  | some ancestor => not <$> less ancestor pivot

/-- Splits a list into what is less than the pivot and the rest.  Nothing is less if the pivot is
known to be as small as can be. -/
def splitLess (ancestor : Option α) (pivot : α) (place : Nat) (items : List α) :
    Except Error (List α × List α) := do
  if ← repeats less ancestor pivot then return ([], items)
  else splitAround (less · pivot) false pivot place items

/-- Splits a list into what is not greater than the pivot and the rest. -/
def splitNotGreater (pivot : α) (place : Nat) (items : List α) : Except Error (List α × List α) :=
  splitAround (fun x => not <$> less pivot x) true pivot place items

/-! ## Sorting -/

/-- Sorts a list by splitting it, at most `limit` times deep.  `ancestor` is a pivot that everything
in the list stands behind. -/
def quicksort : (limit : Nat) → (ancestor : Option α) → List α → Except Error (List α)
  | _, _, [] => .ok []
  | 0, _, x :: items =>
    if items.length < smallLength then smallSort less (x :: items)
    -- In an eager sort every run is sorted when it is found, and nothing is left to sort later.
    else drift less (smallSort less) true (x :: items)
  | limit + 1, ancestor, x :: items =>
    if items.length < smallLength then smallSort less (x :: items)
    else do
      let (pivot, place) ← choosePivot less x items
      let (lefts, rights) ← splitLess less ancestor pivot place (x :: items)
      if lefts.isEmpty then
        -- All that is not greater than the pivot is equal to it.
        let (equals, rest) ← splitNotGreater less pivot place (x :: items)
        return equals ++ (← quicksort limit none rest)
      else
        let rights ← quicksort limit (some pivot) rights
        let lefts ← quicksort limit ancestor lefts
        return lefts ++ rights

/-- Sorts a list so that what is equal stays in order.  Whether the sort notices that comparisons
contradict each other, and then breaks off, depends on which ones it makes. -/
def sort (items : List α) : Except Error (List α) :=
  if items.length ≤ 20 then insertAll less [] items
  else
    let quick (items : List α) := quicksort less (2 * items.length.log2) none items
    drift less quick (items.length ≤ 2 * smallLength) items

end Stencil.Sorting
