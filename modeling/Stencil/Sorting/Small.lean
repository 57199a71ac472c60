import Stencil.Error

/-! # Sorting a few items

Stable sorting by a comparison that may fail, and then the sort fails with it.  Items are moved past
each other only where the comparison says that one is less, so what is equal stays in order.

A comparison that contradicts itself is not noticed as such.  Only where two lists are merged from
both ends at once do the ends have to meet, and if they do not the sort breaks off.

* `insertBack`, `insertAll`: insertion from the back.
* `Merging.step`: one step of a merge; `mergeUp`, `merge` and `mergeBothEnds` are made of them.
* `smallSort`: two halves are sorted by insertion and merged from both ends. -/

namespace Stencil

/-- A comparison: whether the first item has to stand in front of the second one. -/
abbrev Less (α : Type) := α → α → Except Error Bool

namespace Sorting

variable {α : Type} (less : Less α)

/-- The comparison of the reversed order. -/
def flipped : Less α := fun a b => less b a

/-! ## Insertion -/

/-- Puts an item behind every sorted one that does not come after it.  The sorted items are given
from the last to the first. -/
def insertBack (x : α) : List α → Except Error (List α)
  | [] => .ok [x]
  | y :: sorted => do
    -- Only a strictly smaller item goes on, so equal items stay in order.
    if ← less x y then return y :: (← insertBack x sorted)
    else return x :: y :: sorted

/-- Inserts items one by one behind those that are sorted. -/
def insertAll (sorted items : List α) : Except Error (List α) := do
  let result ← items.foldlM (fun sorted x => insertBack less x sorted) sorted.reverse
  return result.reverse

/-! ## Merging -/

/-- What a merge of two lists has taken from them, the last item first, and what is left of them. -/
structure Merging (α : Type) where
  taken : List α := []
  left : List α
  right : List α

namespace Merging

/-- Takes the first item that is left of the left list. -/
def takeLeft (m : Merging α) : Merging α :=
  match m.left with
  | [] => m
  | l :: left => { m with taken := l :: m.taken, left }

/-- Takes the first item that is left of the right list. -/
def takeRight (m : Merging α) : Merging α :=
  match m.right with
  | [] => m
  | r :: right => { m with taken := r :: m.taken, right }

/-- Takes the next item: that of the right list only if it is less, or the other list is used up. -/
def step (m : Merging α) : Except Error (Merging α) :=
  match m.left, m.right with
  | [], _ => .ok m.takeRight
  | _, [] => .ok m.takeLeft
  | l :: _, r :: _ => do return if ← less r l then m.takeRight else m.takeLeft

/-- Takes so many items. -/
def steps : Nat → Merging α → Except Error (Merging α)
  | 0, m => .ok m
  | n + 1, m => do steps n (← m.step less)

end Merging

/-- Merges two sorted lists from the front. -/
def mergeUp (left right : List α) : Except Error (List α) := do
  let merging ← Merging.steps less (left.length + right.length) { left, right }
  return merging.taken.reverse

/-- Merges two sorted lists, from the front or from the back: the shorter one is the one that is
held aside meanwhile. -/
def merge (left right : List α) : Except Error (List α) :=
  if left.length ≤ right.length then mergeUp less left right
  -- From the back, the last item of the left list goes first where the right one is less.
  else List.reverse <$> mergeUp (flipped less) right.reverse left.reverse

/-- Takes so many items from the front of two lists, and as many from their back, in turns. -/
def stepsBothEnds : Nat → Merging α → Merging α → Except Error (Merging α × Merging α)
  | 0, front, back => .ok (front, back)
  | n + 1, front, back => do
    let front ← front.step less
    let back ← back.step (flipped less)
    stepsBothEnds n front back

/-- The end of a merge from both ends: a single item in the middle goes to the front, and then the
two ends have to have met in both lists, which had `leftLength` and `rightLength` items.  They do
if no two comparisons contradict each other. -/
def meet (leftLength rightLength : Nat) (front back : Merging α) : Except Error (List α) :=
  let front :=
    if (leftLength + rightLength) % 2 = 0 then front
    -- The back has seen the lists in reverse order, the right one as its left.
    else if leftLength < front.left.length + back.right.length then front.takeLeft
    else front.takeRight
  if front.left.length + back.right.length = leftLength
      ∧ front.right.length + back.left.length = rightLength then
    .ok (front.taken.reverse ++ back.taken)
  else .error .crash

/-- Merges two sorted lists of about the same length from both ends at once. -/
def mergeBothEnds (left right : List α) : Except Error (List α) := do
  let (front, back) ← stepsBothEnds less ((left.length + right.length) / 2)
    { left, right } { left := right.reverse, right := left.reverse }
  meet left.length right.length front back

/-! ## Small lists -/

/-- Sorts four items that are two sorted pairs: the least and the greatest item are found first, and
then the two between them are compared. -/
def sortPairs (a b c d : α) : Except Error (List α) := do
  let low ← less c a
  let high ← less d b
  let least := if low then c else a
  let greatest := if high then b else d
  let left := if low then a else if high then c else b
  let right := if high then d else if low then b else c
  let swapped ← less right left
  return if swapped then [least, right, left, greatest] else [least, left, right, greatest]

/-- Sorts four items, the two pairs of them first. -/
def sortFour (a b c d : α) : Except Error (List α) := do
  let first ← less b a
  let second ← less d c
  let (a, b) := if first then (b, a) else (a, b)
  let (c, d) := if second then (d, c) else (c, d)
  sortPairs less a b c d

/-- The first items of a half, as they are before the others are inserted: four of them sorted if
there are so many in either half. -/
def presorted (four : Bool) : List α → Except Error (List α)
  | a :: b :: c :: d :: _ => if four then sortFour less a b c d else .ok [a]
  | items => .ok (items.take 1)

/-- Sorts a list by sorting its halves and merging them. -/
def smallSort (items : List α) : Except Error (List α) :=
  if items.length < 2 then .ok items
  else do
    let left := items.take (items.length / 2)
    let right := items.drop (items.length / 2)
    let four : Bool := 8 ≤ items.length
    let leftStart ← presorted less four left
    let rightStart ← presorted less four right
    let left ← insertAll less leftStart (left.drop leftStart.length)
    let right ← insertAll less rightStart (right.drop rightStart.length)
    mergeBothEnds less left right

end Sorting

end Stencil
