import Stencil.Filter.Items
import Stencil.Proofs.FloorDivision
import Stencil.Proofs.Slices

/-!
# What collections answer

A collection is looked into by place: lists by their items, objects by their entries, ranges by
arithmetic on their ends. All of them answer as the list of their members does. So a range answers
as the list of its integers, unless there are more of them than can be counted, and a drop with
items answers as the list of these, unless it answers something by itself.

## Key definitions

- `Collection.members`: the members of a collection, in order

## Key results

- `Collection.getElem?_members`: a member is found by its place
- `Collection.lookup?_members`: a collection answers as the list of its members does
- `Value.stand_for_items`: what ranges and drops have in common with lists
-/

namespace Stencil

open Decimal

/-! ## The integers of a range -/

/-- The integers of a range, one after the other. -/
theorem getElem?_rangeItems {first last : Int64} {index : Nat}
    (h : (index : Int) < last.toInt - first.toInt + 1) :
    ∃ n : Int64, (rangeItems first last)[index]? = some (.int n)
      ∧ n.toInt = first.toInt + index := by
  have hfirst := first.le_toInt
  have hlast := last.toInt_lt
  -- The item lies between the ends, so it fits into 64 bits.
  obtain ⟨n, hn⟩ : ∃ n : Int64, n.toInt = first.toInt + index := by
    refine exists_toInt_eq_iff.mpr ?_
    simp only [Fits, minWhole, maxWhole]
    omega
  refine ⟨n, ?_, hn⟩
  rw [rangeItems, List.getElem?_map, List.getElem?_range (by omega), Option.map_some, ← hn,
    Int64.ofInt_toInt]

/-- A range has as many items as there are integers from its first to its last one. -/
theorem length_rangeItems (first last : Int64) :
    (rangeItems first last).length = (last.toInt - first.toInt + 1).toNat := by
  rw [rangeItems, List.length_map, List.length_range]

/-! ## Members -/

namespace Collection

/-- The members of a collection, in order. -/
def members : Collection → List Value
  | items xs => xs
  | entries m => m.map Value.ofEntry
  | range first last => (Value.range first last).loopItems
  | characters s => s.toList.map fun c => .str c.toString

/-- A collection has as many members as its length says. -/
@[simp] theorem length_members (c : Collection) : c.members.length = c.length := by
  cases c with
  | items xs => rfl
  | entries m => exact List.length_map ..
  | range first last => exact Value.length_loopItems_range first last
  | characters s => exact List.length_map ..

/-- The integers of a range that can be counted are found by arithmetic. -/
theorem get?_range {first last : Int64} {index : Nat} (h : index < (range first last).length) :
    ∃ n : Int64, (range first last).get? index = some (.int n)
      ∧ n.toInt = first.toInt + index := by
  have hcount : (index : Int) < last.toInt - first.toInt + 1 := by
    simp only [length, rangeLength] at h
    omega
  obtain ⟨n, -, hn⟩ := getElem?_rangeItems hcount
  refine ⟨n, ?_, hn⟩
  rw [get?, if_pos h, ← hn, fit?_toInt]
  rfl

/-- The members of a range are its integers. -/
theorem getElem?_members_range (first last : Int64) (index : Nat) :
    (range first last).members[index]? = (range first last).get? index := by
  by_cases h : index < (range first last).length
  · obtain ⟨n, hget, hn⟩ := get?_range h
    simp only [length, rangeLength] at h
    have hcount : (index : Int) < last.toInt - first.toInt + 1 := by omega
    obtain ⟨m, hitem, hm⟩ := getElem?_rangeItems hcount
    rw [members, Value.loopItems, List.getElem?_take_of_lt (by omega), hget, hitem,
      Int64.toInt.inj (hm.trans hn.symm)]
  · rw [get?, if_neg h]
    exact List.getElem?_eq_none (by rw [length_members]; omega)

/-- A member is found by its place. -/
theorem getElem?_members (c : Collection) (index : Nat) : c.members[index]? = c.get? index := by
  cases c with
  | items xs => rfl
  | entries m => exact List.getElem?_map ..
  | range first last => exact getElem?_members_range first last index
  | characters s => exact List.getElem?_map ..

/-- A member at an index is the one of the collection. -/
theorem get?_members (c : Collection) (index : Nat) : (items c.members).get? index = c.get? index :=
  c.getElem?_members index

theorem at?_members (c : Collection) (index : Int64) :
    (items c.members).at? index = c.at? index := by
  have hlength : (items c.members).length = c.length := c.length_members
  unfold at?
  simp only [get?_members]
  rw [hlength]

/-! ## Answers -/

/-- All of a collection that is no text can be seen. -/
theorem isBlank_eq {c : Collection} (htext : ∀ s, c ≠ characters s) :
    c.isBlank = (c.length == 0) := by
  cases c with
  | characters s => exact absurd rfl (htext s)
  | items xs => rfl
  | entries m => rfl
  | range first last => rfl

/-- An index leads to a member, and any other name to an accessor. -/
theorem lookup?_eq {c : Collection} (htext : ∀ s, c ≠ characters s) (key : Value) (dotted : Bool) :
    c.lookup? key dotted =
      match (index? key).map fun n => (c.at? n).getD .nil, key with
      | some v, _ => some v
      | none, .str name => if dotted then c.accessor? name else none
      | none, _ => none := by
  cases c with
  | characters s => exact absurd rfl (htext s)
  | items xs => rfl
  | entries m => rfl
  | range first last => rfl

/-- The accessors ask for the length and for members by their places. -/
theorem accessor?_members {c : Collection} (htext : ∀ s, c ≠ characters s) (name : String) :
    (items c.members).accessor? name = c.accessor? name := by
  have hlength : (items c.members).length = c.length := c.length_members
  unfold accessor?
  simp only [first, last, get?_members, isBlank_eq htext, isBlank_eq (c := items c.members) nofun,
    hlength]

/-- A collection that is no text answers as the list of its members does. -/
theorem lookup?_members {c : Collection} (htext : ∀ s, c ≠ characters s) (key : Value)
    (dotted : Bool) : (items c.members).lookup? key dotted = c.lookup? key dotted := by
  rw [lookup?_eq htext, lookup?_eq (c := items c.members) nofun]
  simp only [at?_members, accessor?_members htext]

end Collection

/-- Slices with the same members have the same length and the same member at every place. -/
theorem Slice.eq_of_toList_eq {slice slice' : Slice} (h : slice.toList = slice'.toList) :
    slice.length = slice'.length ∧ ∀ index < slice.length, slice.get index = slice'.get index := by
  have hlength : slice.length = slice'.length := by
    rw [← Slice.length_toList, h, Slice.length_toList]
  refine ⟨hlength, fun index hindex => ?_⟩
  have hget := Slice.getElem?_toList hindex
  rw [h, Slice.getElem?_toList (hlength ▸ hindex)] at hget
  exact (Option.some.inj hget).symm

namespace Value

/-! ## Ranges and drops in place of lists -/

variable {view : View} {first last : Int64}

/-- The members of a range that can be counted are its integers. -/
theorem members_range (h : (rangeItems first last).length ≤ maxWhole) :
    (Collection.range first last).members = rangeItems first last := by
  rw [length_rangeItems] at h
  exact loopItems_range (by omega)

/-- A range answers as its items do. -/
theorem lookup_range (h : (rangeItems first last).length ≤ maxWhole) (key : Value)
    (dotted : Bool) :
    (range first last).lookup view key dotted
      = (array (rangeItems first last)).lookup view key dotted := by
  have hmembers := Collection.lookup?_members (c := .range first last) nofun key dotted
  rw [members_range h] at hmembers
  exact congrArg Except.ok hmembers.symm

theorem isEmpty?_range :
    (range first last).isEmpty? = (array (rangeItems first last)).isEmpty? := by
  have hempty : (rangeItems first last).isEmpty = decide (last < first) := by
    rw [Bool.eq_iff_iff, List.isEmpty_iff_length_eq_zero, length_rangeItems, decide_eq_true_eq,
      Int64.lt_iff_toInt_lt]
    omega
  exact congrArg some hempty.symm

theorem isBlank_range : (range first last).isBlank = (array (rangeItems first last)).isBlank :=
  congrArg (Option.getD · false) isEmpty?_range

/-- A loop over a range visits what a loop over its integers does. -/
theorem toList_of_range_eq (h : (rangeItems first last).length ≤ maxWhole) (start : Nat)
    (stop : Option Nat) :
    (Slice.of start stop (range first last)).toList
      = (Slice.of start stop (array (rangeItems first last))).toList := by
  rw [Slice.toList_of, Slice.toList_of]
  exact congrArg (Slice.cut start stop) (members_range h)

/-- A drop that does not answer a name itself gives the answer of its items. -/
theorem lookup_drop_of_some {d : Drop} {items : List Value} {key answer : Value} {dotted : Bool}
    (hitems : d.items? = some items) (hmember : d.member? view key.text = .ok none)
    (h : (Collection.items items).lookup? key dotted = some answer) :
    (drop d).lookup view key dotted = .ok (some answer) := by
  show d.lookup view key dotted = _
  rw [Drop.lookup, hmember, hitems]
  simp only [bind, Except.bind, Option.bind_some, h]
  rfl

/-- What neither the drop nor its items answer is nil. -/
theorem lookup_drop_of_none {d : Drop} {items : List Value} {key : Value} {dotted : Bool}
    (hitems : d.items? = some items) (hlenient : view.strictVariables = false)
    (hmember : d.member? view key.text = .ok none)
    (h : (Collection.items items).lookup? key dotted = none) :
    (drop d).lookup view key dotted = .ok (some .nil) := by
  show d.lookup view key dotted = _
  rw [Drop.lookup, hmember, hitems]
  simp only [bind, Except.bind, Option.bind_some, h, hlenient]
  rfl

/-- A range of integers that can be counted answers every key as the list of its integers does, is
empty and blank where that is, and gives loops the same members. A drop with items, without a member
of its own under the key, answers as the list of its items does, with nil for no answer. -/
theorem stand_for_items :
    (∀ first last : Int64, (rangeItems first last).length ≤ maxWhole →
      (∀ view key dotted, (range first last).lookup view key dotted
        = (array (rangeItems first last)).lookup view key dotted)
      ∧ (range first last).isEmpty? = (array (rangeItems first last)).isEmpty?
      ∧ (range first last).isBlank = (array (rangeItems first last)).isBlank
      ∧ ∀ start stop,
        (Slice.of start stop (range first last)).length
            = (Slice.of start stop (array (rangeItems first last))).length
        ∧ ∀ index < (Slice.of start stop (range first last)).length,
          (Slice.of start stop (range first last)).get index
            = (Slice.of start stop (array (rangeItems first last))).get index)
    ∧ ∀ (view : View) (d : Drop) (items : List Value) (key : Value), d.items? = some items →
      view.strictVariables = false → d.member? view key.text = .ok none →
      ∀ dotted, ∃ found, (array items).lookup view key dotted = .ok found
        ∧ (drop d).lookup view key dotted = .ok (some (found.getD .nil)) := by
  constructor
  · intro first last h
    exact ⟨fun view => lookup_range h, isEmpty?_range, isBlank_range,
      fun start stop => Slice.eq_of_toList_eq (toList_of_range_eq h start stop)⟩
  · intro view d items key hitems hlenient hmember dotted
    refine ⟨(Collection.items items).lookup? key dotted, rfl, ?_⟩
    -- A drop answers nil where a list has no answer, unless names are strict.
    cases h : (Collection.items items).lookup? key dotted with
    | some answer => exact lookup_drop_of_some hitems hmember h
    | none => exact lookup_drop_of_none hitems hlenient hmember h

/-- The last two integers there are, and a drop with an accessor of another name. -/
theorem stand_for_items_ends :
    (range (Int64.maxValue - 1) Int64.maxValue).lookup {} (.int (-1)) false
        = .ok (some (.int Int64.maxValue))
      ∧ (drop (.host 0 [("id", .value (.int 7))] [] none none (some [.int 1, .int 2]) "")).lookup {}
          (.str "last") true = .ok (some (.int 2)) := by
  have hitems : rangeItems (Int64.maxValue - 1) Int64.maxValue
      = [.int (Int64.maxValue - 1), .int Int64.maxValue] := rfl
  obtain ⟨hlookup, -⟩ := stand_for_items.1 (Int64.maxValue - 1) Int64.maxValue (by
    rw [hitems]
    decide)
  obtain ⟨found, hfound, hdrop⟩ := stand_for_items.2 {}
    (.host 0 [("id", .value (.int 7))] [] none none (some [.int 1, .int 2]) "")
    [.int 1, .int 2] (.str "last") rfl rfl rfl true
  have hlast : found = some (.int 2) := (Except.ok.inj hfound).symm
  rw [hlast] at hdrop
  refine ⟨?_, hdrop⟩
  rw [hlookup, hitems]
  rfl

end Value

end Stencil
