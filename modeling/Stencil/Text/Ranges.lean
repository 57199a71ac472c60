/-! # Sets of characters as range tables

A Unicode property is a set of code points that falls into a few hundred stretches.  `Ranges` lists
them in ascending order as inclusive pairs, and `Ranges.contains` finds a code point by bisection.
The tables hold what Unicode 17 lists, without the surrogates, which are no characters.

* `Ranges.mem_of_contains`: whatever bisection finds lies in one of the listed stretches. -/

namespace Stencil.Text

/-- Ascending, disjoint, inclusive stretches of code points. -/
abbrev Ranges := Array (Nat × Nat)

namespace Ranges

/-- Bisects the stretches with an index of at least `low` and less than `high`. -/
def search (table : Ranges) (code low high : Nat) : Bool :=
  if low < high then
    let middle := (low + high) / 2
    match table[middle]? with
    | none => false
    | some (first, last) =>
      if code < first then search table code low middle
      else if last < code then search table code (middle + 1) high
      else true
  else false
termination_by high - low

/-- Whether `c` lies in one of the stretches. -/
def contains (table : Ranges) (c : Char) : Bool :=
  search table c.toNat 0 table.size

theorem mem_of_search {table : Ranges} {code low high : Nat}
    (h : search table code low high = true) :
    ∃ r ∈ table, r.1 ≤ code ∧ code ≤ r.2 := by
  fun_induction search table code low high with
  | case1 => simp at h
  | case2 _ _ _ _ _ _ _ _ ih => exact ih h
  | case3 _ _ _ _ _ _ _ _ _ ih => exact ih h
  | case4 low high _ middle first last hget hfirst hlast =>
    exact ⟨(first, last), Array.mem_of_getElem? hget, by omega, by omega⟩
  | case5 => simp at h

/-- Whatever bisection finds lies in one of the listed stretches. -/
theorem mem_of_contains {table : Ranges} {c : Char} (h : table.contains c = true) :
    ∃ r ∈ table, r.1 ≤ c.toNat ∧ c.toNat ≤ r.2 :=
  mem_of_search h

end Ranges

end Stencil.Text
