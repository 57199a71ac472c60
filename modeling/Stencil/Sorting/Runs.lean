import Stencil.Sorting.Small

/-! # Sorting by runs

A list is scanned for runs, which are stretches that are sorted already.  Runs are merged as soon as
that keeps the tree of merges balanced.  Where no long run is found, a stretch is taken as it is and
sorted once it has to be merged; short stretches are sorted at once if the list is a short one.

* `createRun`: the next run of what is not scanned yet.
* `collapse`: merges the latest runs that belong deeper into the tree.
* `drift`: scans and merges the whole list. -/

namespace Stencil.Sorting

variable {α : Type}

/-- Up to how many items are sorted by insertion and a merge. -/
def smallLength : Nat := 32

/-- A stretch of the list. -/
structure Run (α : Type) where
  items : List α
  /-- Whether the stretch is known to be sorted. -/
  sorted : Bool

/-! ## Finding runs -/

section

variable (less : Less α)

/-- How many of the items behind `previous` go on in the same direction. -/
def runLength (descending : Bool) (previous : α) : List α → Except Error Nat
  | [] => .ok 0
  | x :: items => do
    -- Ascending runs may hold equal items, descending ones may not: they are reversed.
    if (← less x previous) == descending then return (← runLength descending x items) + 1
    else return 0

/-- How many items at the front descend strictly, or never descend; and whether they do. -/
def existingRun : List α → Except Error (Nat × Bool)
  | [] => .ok (0, false)
  | [_] => .ok (1, false)
  | x :: y :: items => do
    let descending ← less y x
    return ((← runLength less descending y items) + 2, descending)

/-- The run at the front, put into ascending order, if it has at least `minimum` items. -/
def goodRun? (minimum : Nat) (items : List α) : Except Error (Option (Run α)) :=
  if items.length < minimum then .ok none
  else do
    let (length, descending) ← existingRun less items
    let run := items.take length
    return if length < minimum then none
      else some ⟨if descending then run.reverse else run, true⟩

/-- The next run.  If there is none to be found, it is a stretch that is sorted now if the sort is
an eager one, and else later. -/
def createRun (minimum : Nat) (eager : Bool) (items : List α) : Except Error (Run α) := do
  match ← goodRun? less minimum items with
  | some run => return run
  | none =>
    -- An eager sort is one of a list too short for quicksort to pay.
    if eager then return ⟨← smallSort less (items.take smallLength), true⟩
    else return ⟨items.take minimum, false⟩

end

/-! ## Merging runs -/

section

variable (less : Less α) (quick : List α → Except Error (List α))

/-- The items of a run, sorted. -/
def Run.sort (run : Run α) : Except Error (List α) :=
  if run.sorted then .ok run.items else quick run.items

/-- Merges two runs.  Two stretches that are not sorted stay so, as long as both together fit into
the memory that is held for sorting. -/
def mergeRuns (memory : Nat) (left right : Run α) : Except Error (Run α) :=
  -- Two stretches that fit into the memory together are cheaper sorted in one go.
  if left.sorted || right.sorted || memory < left.items.length + right.items.length then do
    let leftItems ← left.sort quick
    let rightItems ← right.sort quick
    return ⟨← merge less leftItems rightItems, true⟩
  else .ok ⟨left.items ++ right.items, false⟩

/-- Merges a run with those in front of it that belong at `depth` or deeper into the tree of merges.
The runs are given from the last to the first, each with the depth of its merge with the next
one. -/
def collapse (memory depth : Nat) (run : Run α) :
    List (Run α × Nat) → Except Error (List (Run α × Nat) × Run α)
  | [] => .ok ([], run)
  | (left, leftDepth) :: runs =>
    -- The run in front belongs below this merge, so it is merged first.
    if depth ≤ leftDepth then do collapse memory depth (← mergeRuns less quick memory left run) runs
    else .ok ((left, leftDepth) :: runs, run)

end

/-! ## The tree of merges -/

/-- About the root of a number. -/
def rootOf (n : Nat) : Nat :=
  let shift := (1 + n.log2) / 2
  (1 <<< shift + n >>> shift) / 2

/-- From which length on a run is a good one. -/
def goodLength (length : Nat) : Nat :=
  if length ≤ 64 * 64 then min (length - length / 2) 64 else rootOf length

/-- How many leading zeros a number of 64 binary digits has. -/
def leadingZeros (n : Nat) : Nat :=
  if n = 0 then 64 else 63 - n.log2

/-- How deep the merge of the stretch from `start` to `middle` with that from `middle` to `stop`
belongs into the tree: how many leading digits the centres of both have in common. -/
def mergeDepth (length start middle stop : Nat) : Nat :=
  let scale := (1 <<< 62 + length - 1) / length
  leadingZeros ((scale * (start + middle)) ^^^ (scale * (middle + stop)))

/-- How many items fit into the memory that is held for sorting so many. -/
def memoryFor (length : Nat) : Nat :=
  max (max (length - length / 2) (min length 111111)) 48

/-! ## Scanning -/

section

variable (less : Less α) (quick : List α → Except Error (List α))

/-- Scans what is left of a list of `length` items, of which `scanned` are in runs already: the last
run is `run` and `runs` are those in front of it. -/
def driftFrom (length : Nat) (eager : Bool) (scanned : Nat) (runs : List (Run α × Nat))
    (run : Run α) : List α → Except Error (Run α)
  | [] => do return (← collapse less quick (memoryFor length) 0 run runs).2
  | x :: items => do
    let next ← createRun less (goodLength length) eager (x :: items)
    let scanned' := scanned + next.items.length
    -- Where the last run and the next one meet decides what is merged before it.
    let depth := mergeDepth length (scanned - run.items.length) scanned scanned'
    let (runs, run) ← collapse less quick (memoryFor length) depth run runs
    driftFrom length eager scanned' ((run, depth) :: runs) next (items.drop (next.items.length - 1))
termination_by items => items.length
decreasing_by simp only [List.length_drop, List.length_cons]; omega

/-- Sorts a list by its runs. -/
def drift (eager : Bool) (items : List α) : Except Error (List α) := do
  let first ← createRun less (goodLength items.length) eager items
  let run ← driftFrom less quick items.length eager first.items.length [] first
    (items.drop first.items.length)
  run.sort quick

end

end Stencil.Sorting
