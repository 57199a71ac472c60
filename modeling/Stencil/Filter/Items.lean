import Stencil.Filter.Text
import Stencil.Sorting.Quick
import Stencil.Value.Order

/-! # Filters on collections

Filters that take a value as a list of items.  Nested lists are flattened, a range is written out
only if the budget allows for its length, nil has no items, and any other value is its own single
item. -/

namespace Stencil.Filter

mutual

/-- The value's items if it is a list, however deep, and else the value itself, put in front of
`rest`. -/
def flattenOnto : Value → List Value → List Value
  | .array items, rest => flattenAllOnto items rest
  | v, rest => v :: rest

/-- The flattened items of a list, put in front of `rest`. -/
def flattenAllOnto : List Value → List Value → List Value
  | [], rest => rest
  | v :: vs, rest => flattenOnto v (flattenAllOnto vs rest)

end

/-- The items that a filter works on. -/
def itemsOf (view : View) : Value → Except Error (List Value)
  | .nil => .ok []
  | .array items => .ok (flattenAllOnto items [])
  | .range first last => do
    -- A range is written out here, so its length has to be affordable.
    view.budget.checkScore (rangeLength first last)
    return rangeItems first last
  | .drop d => .ok (d.items?.getD [.drop d])
  | v => .ok [v]

/-- The property of an item, nil if it has none. -/
def property (view : View) (name item : Value) : Except Error Value := do
  return (← item.lookup view name true).getD .nil

/-- The size of a text in characters or of a collection in items; zero for everything else. -/
def lengthOf : Value → Nat
  | .str s => s.length
  | .array items => items.length
  | .object entries => entries.length
  | .range first last => rangeLength first last
  | .drop d => (d.items?.map List.length).getD 0
  | _ => 0

/-- The size of the input. -/
def size : Filter :=
  ⟨0, 0, fun _ input _ => .ok (.ofCount (lengthOf input))⟩

/-- The texts of the items with the argument, or a space, between them. -/
def join : Filter :=
  ⟨0, 1, fun view input args => do
    let items ← itemsOf view input
    return .str ((textArgument args 0 " ").intercalate (items.map Value.text))⟩

/-- The first item. -/
def first : Filter :=
  ⟨0, 0, fun view input _ =>
    match input with
    -- The ends are known without writing the range out.
    | .range a b => .ok (if a ≤ b then .int a else .nil)
    | .array _ | .drop _ => do return (← itemsOf view input).head?.getD .nil
    | _ => .ok .nil⟩

/-- The last item. -/
def last : Filter :=
  ⟨0, 0, fun view input _ =>
    match input with
    | .range a b => .ok (if a ≤ b then .int b else .nil)
    | .array _ | .drop _ => do return (← itemsOf view input).getLast?.getD .nil
    | _ => .ok .nil⟩

/-- The items in reverse order. -/
def reverse : Filter :=
  ⟨0, 0, fun view input _ => do return .array (← itemsOf view input).reverse⟩

/-- The key by which a filter tells items apart: a property if one is named, else the item itself.
-/
def keyOf (view : View) (args : Arguments) (item : Value) : Except Error Value :=
  match args.positional[0]? with
  | some name => property view name item
  | none => .ok item

/-- The items whose key equals none of the keys in `seen` and none of an earlier item. -/
def distinctFrom (key : Value → Except Error Value) (seen : List Value) :
    List Value → Except Error (List Value)
  | [] => .ok []
  | item :: items => do
    let k ← key item
    if Value.anySame seen k then distinctFrom key seen items
    else return item :: (← distinctFrom key (seen ++ [k]) items)

/-- The first item of every key. -/
def uniq : Filter :=
  ⟨0, 1, fun view input args => do
    return .array (← distinctFrom (keyOf view args) [] (← itemsOf view input))⟩

/-- The items whose key is not nil. -/
def compact : Filter :=
  ⟨0, 1, fun view input args => do
    let items ← itemsOf view input
    return .array (← items.filterM fun item => do return !(← keyOf view args item).isNil)⟩

/-- The property of every item. -/
def map : Filter :=
  ⟨1, 0, fun view input args => do
    let items ← itemsOf view input
    return .array (← items.mapM (property view (args.arg 0)))⟩

/-! ## Sorting -/

/-- Whether the first key comes before the second one.  Nil comes after everything, and keys
without an order are an error. -/
def comesBefore (a b : Value) : Except Error Bool :=
  match a, b with
  | .nil, _ => .ok false
  | _, .nil => .ok true
  | a, b =>
    match a.order? b with
    | some o => .ok (o == .lt)
    | none => .error (a.incomparable b)

/-- The comparison that a sort goes on with: two keys without an order count as equal. -/
def guessedBefore (a b : Value) : Except Error Bool :=
  match comesBefore a b with
  | .ok before => .ok before
  | .error _ => .ok false

/-- Sorts items by the keys in front of them; items with equal keys keep their order.  The first two
keys that are compared without having an order are the error.  It is not reported before the sort is
through, which goes on as if the two were equal and may break off for that. -/
def sortedByKey (entries : List (Value × Value)) : Except Error (List (Value × Value)) :=
  match Sorting.sort (fun a b => comesBefore a.1 b.1) entries with
  | .ok sorted => .ok sorted
  | .error e => do
    -- Only whether this one answers matters; what it answers is thrown away.
    let _ ← Sorting.sort (fun a b => guessedBefore a.1 b.1) entries
    throw e

/-- The items in the order of their keys. -/
def sort : Filter :=
  ⟨0, 1, fun view input args => do
    let items ← itemsOf view input
    let entries ← items.mapM fun item => do return (← keyOf view args item, item)
    return .array ((← sortedByKey entries).map Prod.snd)⟩

/-! ## Defaults -/

/-- The argument in place of nil, false and what is empty; with the keyword for it, false stays. -/
def default : Filter :=
  ⟨0, 1, fun _ input args =>
    let allowFalse := ((args.keyword? "allow_false").map Value.isTruthy).getD false
    let scalar := input.scalar
    -- Nil, false and what is empty are told by the form that stands for a drop.
    let missing := if allowFalse then scalar.isNil else !scalar.isTruthy
    .ok (if missing || scalar.isEmpty?.getD false then (args.positional[0]?).getD (.str "")
      else input)⟩

end Stencil.Filter
