import Stencil.Value

/-! # Collections

What can be indexed and measured: lists, objects as lists of pairs, ranges without being written
out, and texts as lists of characters.  A range counts at most `2 ^ 63 - 1` integers, so that its
length is a template integer.

* `rangeLength_eq_zero_iff`: a range is empty exactly when it ends before it starts.
* `length_range_le`: lengths of ranges are template integers. -/

namespace Stencil

/-- How many integers there are from `first` to `last`, at most the largest template integer. -/
def rangeLength (first last : Int64) : Nat :=
  min (last.toInt - first.toInt + 1).toNat Decimal.maxWhole.toNat

theorem rangeLength_eq_zero_iff (first last : Int64) :
    rangeLength first last = 0 ↔ last.toInt < first.toInt := by
  simp only [rangeLength, Decimal.maxWhole]
  omega

/-- The integers of a range, written out. -/
def rangeItems (first last : Int64) : List Value :=
  (List.range (last.toInt - first.toInt + 1).toNat).map fun (i : Nat) =>
    .int (Int64.ofInt (first.toInt + i))

/-- Something that can be indexed. -/
inductive Collection where
  | items (items : List Value)
  | entries (object : Object)
  | range (first last : Int64)
  | characters (text : String)

namespace Collection

/-- How many members there are. -/
def length : Collection → Nat
  | items xs => xs.length
  | entries m => m.length
  | range first last => rangeLength first last
  | characters s => s.length

/-- The member at a place, counted from zero. -/
def get? (c : Collection) (index : Nat) : Option Value :=
  match c with
  | items xs => xs[index]?
  | entries m => (m[index]?).map Value.ofEntry
  | range first _ =>
    if index < c.length then (Decimal.fit? (first.toInt + index)).map .int else none
  | characters s => (s.toList[index]?).map fun ch => .str ch.toString

/-- The member at an index; a negative index counts from the end. -/
def at? (c : Collection) (index : Int64) : Option Value :=
  let place := if index.toInt < 0 then c.length + index.toInt else index.toInt
  if place < 0 then none else c.get? place.toNat

/-- The first member, nil if there is none. -/
def first (c : Collection) : Value :=
  (c.get? 0).getD .nil

/-- The last member, nil if there is none. -/
def last (c : Collection) : Value :=
  if c.length = 0 then .nil else (c.get? (c.length - 1)).getD .nil

/-- Whether nothing can be seen of the collection. -/
def isBlank : Collection → Bool
  | characters s => Text.isBlankText s
  | c => c.length == 0

/-- What every collection answers to a name after a dot. -/
def accessor? (c : Collection) (name : String) : Option Value :=
  match name with
  | "size" => some (.ofCount c.length)
  | "first" => some c.first
  | "last" => some c.last
  | "empty" => some (.bool (c.length == 0))
  | "blank" => some (.bool c.isBlank)
  | _ => none

/-- The index that a key stands for: an integer, or a text that is one. -/
def index? : Value → Option Int64
  | .int n => some n
  | .str s => Decimal.readWhole? s
  | _ => none

/-- What the collection answers to a key.  Texts have no members, an index beyond the ends gives
nil, and names are answered after a dot only. -/
def lookup? (c : Collection) (key : Value) (dotted : Bool) : Option Value :=
  let member :=
    match c with
    | characters _ => none
    | _ => (index? key).map fun n => (c.at? n).getD .nil
  match member, key with
  -- An index is never a name, even where it leads nowhere.
  | some v, _ => some v
  | none, .str name => if dotted then c.accessor? name else none
  | none, _ => none

theorem length_range_le (first last : Int64) :
    ((range first last).length : Int) ≤ Decimal.maxWhole := by
  simp only [length, rangeLength, Decimal.maxWhole]
  omega

end Collection

end Stencil
