import Stencil.Filter.Standard
import Stencil.Proofs.Hereditary
import Stencil.Proofs.StableSort

/-!
# What the standard filters keep

The standard filters make texts, numbers and lists. All else that they give was within what they
were given. So what is handed down from values to what is within them, and holds of a list if it
holds of its items, holds of all that a pipeline of them gives. What they fail with are errors of
arguments and of arithmetic, errors that looking into a value raises, and the one error of a budget
that has no room for writing out a range.

## Key definitions

- `Filter.Keeps`: a filter that makes nothing that does not satisfy `V`

## Key results

- `Filter.standard_keeps`: all standard filters
- `Hereditary.pipeline`: pipelines of filters that keep what is handed down
-/

namespace Stencil

/-- All values of the arguments satisfy `V`. -/
structure Arguments.All (V : Value → Prop) (args : Arguments) : Prop where
  positional : ∀ v ∈ args.positional, V v
  keywords : ∀ e ∈ args.keywords, V e.2

/-- A filter may crash on its input: one that computes with numbers if a drop has none, and one that
sorts if there are many items. -/
def Filter.MayCrash (view : View) (input : Value) (args : Arguments) : Prop :=
  input.number? = none ∨ (args.arg 0).number? = none
    ∨ ∃ items, Filter.itemsOf view input = .ok items ∧ 20 < items.length

/-- Where all that it is given satisfies `V`, the filter gives such a value, or fails with an error
that satisfies `E`. It may crash only on such input. -/
def Filter.Keeps (V : Value → Prop) (E : Error → Prop) (f : Filter) : Prop :=
  ∀ view input args, view.All V E → V input → args.All V →
    (MayCrash view input args → E .crash) → Meets V E (f.run view input args)

/-- What is handed down holds of a list if it holds of its items, and an exhausted budget is an
error that may come up. -/
structure Hereditary.Listed (V : Value → Prop) (E : Error → Prop) : Prop extends
    Hereditary V E where
  array {items : List Value} : (∀ v ∈ items, V v) → V (.array items)
  overBudget : E .overBudget

namespace Filter

variable {V : Value → Prop} {E : Error → Prop} (h : Hereditary.Listed V E)
include h

/-! ## Filters on text -/

/-- A filter on texts gives a text. -/
private theorem ofText_keeps (f : String → String) : (ofText f).Keeps V E :=
  fun _ _ _ _ _ _ _ => h.atom rfl

/-- So does escaping. -/
private theorem escape_keeps : escape.Keeps V E := by
  intro view input args _ _ _ _
  cases input <;> exact h.atom rfl

/-- Splitting gives texts. -/
private theorem split_keeps : split.Keeps V E := by
  intro view input args _ _ _ _
  refine h.array fun v hv => ?_
  obtain ⟨part, -, rfl⟩ := List.mem_map.mp hv
  exact h.atom rfl

/-- An argument that counts is an integer, or refused as one. -/
private theorem countArgument_meets (args : Arguments) (index otherwise : Nat) :
    Meets (fun _ => True) E (countArgument args index otherwise) := by
  unfold countArgument
  split
  · rename_i v _
    -- Only a number that cannot be read fails.
    have hm := h.toInteger v
    cases hr : v.toInteger with
    | ok n => trivial
    | error e =>
      rw [hr] at hm
      exact hm
  · trivial

/-- Truncating gives a text. -/
private theorem truncate_keeps : truncate.Keeps V E := by
  intro view input args _ _ _ _
  cases input with
  | nil => exact h.atom rfl
  -- A limit that is no number is an error of the argument.
  | _ => exact .bind (countArgument_meets h args 0 50) fun limit _ => h.atom rfl

/-- A slice of a text is a text, and one of items is made of its items. -/
private theorem slice_keeps : slice.Keeps V E := by
  intro view input args _ hinput _ _
  refine .bind (h.toInteger _) fun offset _ => ?_
  refine .bind (countArgument_meets h args 1 1) fun count _ => ?_
  -- The items of a slice are items; a slice of anything else is a text.
  cases input with
  | array items =>
    refine h.array fun v hv => ?_
    unfold sliceOf at hv
    split at hv
    · exact h.item hinput v (List.mem_of_mem_drop (List.mem_of_mem_take hv))
    · exact nomatch hv
  | _ => exact h.atom rfl

/-! ## Filters on numbers -/

/-- Numbers are atoms. -/
private theorem toValue_keeps (n : Number) : V n.toValue := by
  cases n <;> exact h.atom rfl

/-- So are numbers that are made whole. -/
private theorem toWhole_keeps (f : Float → Float) (n : Number) : V (toWhole f n) := by
  cases n <;> exact h.atom rfl

omit h in
/-- A value has no number only if the search for one has no end. -/
private theorem number_meets {v : Value} (hcrash : v.number? = none → E .crash) :
    Meets (fun _ => True) E v.number := by
  unfold Value.number
  split
  · trivial
  · rename_i hnone
    exact hcrash hnone

omit h in
/-- A filter that computes with the numbers of its input and its argument. -/
private theorem ofNumbers_meets {f : Number → Number → Except Error Value}
    (hf : ∀ a b, Meets V E (f a b)) {view : View} {input : Value} {args : Arguments}
    (hcrash : MayCrash view input args → E .crash) :
    Meets V E (input.number >>= fun a => (args.arg 0).number >>= f a) :=
  .bind (number_meets fun hnone => hcrash (.inl hnone)) fun a _ =>
    .bind (number_meets fun hnone => hcrash (.inr (.inl hnone))) fun b _ => hf a b

/-- Arithmetic on two numbers gives a number. -/
private theorem binary_keeps (onInts : Int → Int → Option Int64)
    (onFloats : Float → Float → Float) : (binary onInts onFloats).Keeps V E :=
  fun _ _ _ _ _ _ hcrash =>
    ofNumbers_meets (f := fun _ _ => .ok _) (fun _ _ => toValue_keeps h _) hcrash

/-- So does division, unless it is by zero. -/
private theorem dividing_keeps (onInts : Int → Int → Option Int64)
    (onFloats : Float → Float → Float) : (dividing onInts onFloats).Keeps V E := by
  refine fun _ _ _ _ _ _ hcrash => ofNumbers_meets (fun a b => ?_) hcrash
  unfold dividing.quotient
  split
  · exact h.raised nofun nofun nofun rfl rfl
  · exact toValue_keeps h _

/-- So does the absolute value. -/
private theorem abs_keeps : abs.Keeps V E := by
  refine fun _ _ _ _ _ _ hcrash =>
    .map (number_meets fun hnone => hcrash (.inl hnone)) fun n _ => ?_
  unfold abs.magnitude
  split
  · split <;> exact h.atom rfl
  · exact h.atom rfl

/-- A filter that rounds to an integer. -/
private theorem ofWhole_meets (f : Float → Float) {view : View} {input : Value} {args : Arguments}
    (hcrash : MayCrash view input args → E .crash) : Meets V E (toWhole f <$> input.number) :=
  .map (number_meets fun hnone => hcrash (.inl hnone)) fun n _ => toWhole_keeps h f n

/-- So does rounding, to whatever digits. -/
private theorem round_keeps : round.Keeps V E := by
  intro view input args _ _ _ hcrash
  -- A number is given back, rounded to so many digits.
  have hrounded (digits : Int64) : Meets V E (do
      let n ← input.number
      if digits = 0 then return toWhole Float.round n
      else
        let factor := powerOfTen (decimalPlaces digits)
        return .float ((n.toFloat * factor).round / factor)) := by
    refine .bind (number_meets fun hnone => hcrash (.inl hnone)) fun n _ => ?_
    split
    · exact toWhole_keeps h _ _
    · exact h.atom rfl
  unfold round
  dsimp only
  split
  · exact .bind (h.toInteger _) fun digits _ => hrounded digits
  · exact hrounded 0

/-- The smaller or the larger of two numbers is one of them. -/
private theorem unlessOrdered_meets (worse : Ordering) {view : View} {input : Value}
    {args : Arguments} (hcrash : MayCrash view input args → E .crash) :
    Meets V E (do
      return (unlessOrdered worse (← input.number) (← (args.arg 0).number)).toValue) :=
  ofNumbers_meets (f := fun _ _ => .ok _) (fun _ _ => toValue_keeps h _) hcrash

/-! ## Filters on collections -/

omit h in
mutual

/-- What is flattened consists of items at some depth. -/
private theorem all_flattenOnto (hitem : ∀ {items}, V (.array items) → ∀ v ∈ items, V v) :
    ∀ (v : Value) {rest : List Value}, V v → (∀ w ∈ rest, V w) → ∀ w ∈ flattenOnto v rest, V w
  | .array items, _, hv, hrest => by
    rw [flattenOnto]
    exact all_flattenAllOnto hitem items (hitem hv) hrest
  | .nil, _, hv, hrest | .bool _, _, hv, hrest | .int _, _, hv, hrest | .float _, _, hv, hrest
  | .str _, _, hv, hrest | .object _, _, hv, hrest | .range .., _, hv, hrest
  | .drop _, _, hv, hrest => by
    rw [flattenOnto]
    · exact List.forall_mem_cons.mpr ⟨hv, hrest⟩
    · nofun

/-- So do items that are flattened one after the other. -/
private theorem all_flattenAllOnto (hitem : ∀ {items}, V (.array items) → ∀ v ∈ items, V v) :
    ∀ (items : List Value) {rest : List Value}, (∀ w ∈ items, V w) → (∀ w ∈ rest, V w) →
    ∀ w ∈ flattenAllOnto items rest, V w
  | [], _, _, hrest => hrest
  | v :: vs, _, hall, hrest => by
    obtain ⟨hv, hvs⟩ := List.forall_mem_cons.mp hall
    rw [flattenAllOnto]
    exact all_flattenOnto hitem v hv (all_flattenAllOnto hitem vs hvs hrest)

end

/-- Items that satisfy `V`. -/
private abbrev ItemsMeet (V : Value → Prop) (E : Error → Prop) :
    Except Error (List Value) → Prop :=
  Meets (fun items => ∀ v ∈ items, V v) E

/-- A range for which there is no room is the error of the budget. -/
private theorem itemsOf_meets (view : View) {input : Value} (hinput : V input) :
    ItemsMeet V E (itemsOf view input) := by
  unfold itemsOf
  split
  · exact List.forall_mem_nil _
  · exact all_flattenAllOnto h.item _ (h.item hinput) (List.forall_mem_nil _)
  · rename_i first last
    -- A range is made of integers, if there is room for them.
    have hroom : Meets (fun _ => True) E (view.budget.checkScore (rangeLength first last)) := by
      unfold Budget.checkScore
      split
      · exact h.overBudget
      · trivial
    refine .bind hroom fun _ _ v hv => ?_
    obtain ⟨index, -, rfl⟩ := List.mem_map.mp hv
    exact h.atom rfl
  · rename_i d
    cases hi : d.items? with
    | none => exact List.forall_mem_singleton.mpr hinput
    | some items => exact h.dropItem hinput hi
  · exact List.forall_mem_singleton.mpr hinput

/-- Joining gives a text. -/
private theorem join_keeps : join.Keeps V E :=
  fun view _ _ _ hinput _ _ => .bind (itemsOf_meets h view hinput) fun _ _ => h.atom rfl

/-- The first item is one of the items. -/
private theorem first_keeps : first.Keeps V E := by
  intro view input args _ hinput _ _
  have hitems : Meets V E (do return (← itemsOf view input).head?.getD .nil) :=
    .bind (itemsOf_meets h view hinput) fun items hall =>
      h.getD fun v hv => hall v (List.mem_of_head? hv)
  -- A range starts with an integer; a list or a drop with one of its items.
  cases input with
  | range a b =>
    show V (if a ≤ b then Value.int a else .nil)
    split <;> exact h.atom rfl
  | array items => exact hitems
  | drop d => exact hitems
  | _ => exact h.atom rfl

/-- So is the last one. -/
private theorem last_keeps : last.Keeps V E := by
  intro view input args _ hinput _ _
  have hitems : Meets V E (do return (← itemsOf view input).getLast?.getD .nil) :=
    .bind (itemsOf_meets h view hinput) fun items hall =>
      h.getD fun v hv => hall v (List.mem_of_getLast? hv)
  -- A range ends with an integer; a list or a drop with one of its items.
  cases input with
  | range a b =>
    show V (if a ≤ b then Value.int b else .nil)
    split <;> exact h.atom rfl
  | array items => exact hitems
  | drop d => exact hitems
  | _ => exact h.atom rfl

/-- Reversed items are the same items. -/
private theorem reverse_keeps : reverse.Keeps V E := fun view _ _ _ hinput _ _ =>
  .bind (itemsOf_meets h view hinput) fun _ hall =>
    h.array fun v hv => hall v (List.mem_reverse.mp hv)

/-- The default is the input or an argument. -/
private theorem default_keeps : default.Keeps V E := by
  intro view input args _ hinput hargs _
  have harg : V (args.positional[0]?.getD (Value.str "")) := by
    cases harg : args.positional[0]? with
    | none => exact h.atom rfl
    | some v => exact hargs.positional v (List.mem_of_getElem? harg)
  -- The input or the argument, whichever it is.
  have hpick (missing : Bool) :
      V (if missing then args.positional[0]?.getD (.str "") else input) := by
    split
    · exact harg
    · exact hinput
  exact hpick _

/-! ### Filters with keys -/

/-- A property of an item is looked up in it. -/
private theorem property_meets {view : View} (hview : view.All V E) (name : Value) {item : Value}
    (hitem : V item) : Meets V E (property view name item) :=
  .bind (h.lookup hview hitem name true) fun _ hfound => h.getD hfound

/-- The key of an item is the item or a property of it. -/
private theorem keyOf_meets {view : View} (hview : view.All V E) (args : Arguments) {item : Value}
    (hitem : V item) : Meets V E (keyOf view args item) := by
  unfold keyOf
  split
  · exact property_meets h hview _ hitem
  · exact hitem

omit h in
/-- Distinct items are some of the items. -/
private theorem distinctFrom_meets {key : Value → Except Error Value}
    (hkey : ∀ v, V v → Meets V E (key v)) (seen : List Value) {items : List Value}
    (hitems : ∀ v ∈ items, V v) : ItemsMeet V E (distinctFrom key seen items) := by
  induction items generalizing seen with
  | nil => exact List.forall_mem_nil _
  | cons item items ih =>
    obtain ⟨hitem, hitems⟩ := List.forall_mem_cons.mp hitems
    refine .bind (hkey item hitem) fun k _ => ?_
    split
    · exact ih seen hitems
    · exact .bind (ih _ hitems) fun rest hrest => List.forall_mem_cons.mpr ⟨hitem, hrest⟩

/-- So are those that `uniq` gives. -/
private theorem uniq_keeps : uniq.Keeps V E := by
  intro view input args hview hinput _ _
  refine .bind (itemsOf_meets h view hinput) fun items hitems => ?_
  refine .bind (distinctFrom_meets (fun v hv => keyOf_meets h hview args hv) [] hitems)
    fun kept hkept => ?_
  exact h.array hkept

omit h in
/-- Items that are kept by a test are some of the items, by induction on those that are left. -/
private theorem filterAuxM_meets {keep : Value → Except Error Bool}
    (hkeep : ∀ v, V v → Meets (fun _ => True) E (keep v)) {items : List Value}
    (hitems : ∀ v ∈ items, V v) {kept : List Value} (hkept : ∀ v ∈ kept, V v) :
    ItemsMeet V E (items.filterAuxM keep kept) := by
  -- By induction on the items: what is kept are some of them.
  induction items generalizing kept with
  | nil => exact hkept
  | cons item items ih =>
    obtain ⟨hitem, hitems⟩ := List.forall_mem_cons.mp hitems
    refine .bind (hkeep item hitem) fun keeps _ => ih hitems ?_
    cases keeps with
    | true => exact List.forall_mem_cons.mpr ⟨hitem, hkept⟩
    | false => exact hkept

/-- So are those that `compact` keeps. -/
private theorem compact_keeps : compact.Keeps V E := by
  intro view input args hview hinput _ _
  refine .bind (itemsOf_meets h view hinput) fun items hitems => ?_
  have hkeep (v : Value) (hv : V v) :
      Meets (fun _ => True) E (do return !(← keyOf view args v).isNil) :=
    .bind (keyOf_meets h hview args hv) fun _ _ => trivial
  have hkept : ItemsMeet V E (items.filterM fun v => do return !(← keyOf view args v).isNil) :=
    .bind (filterAuxM_meets hkeep hitems (List.forall_mem_nil _)) fun kept hkept v hv =>
      hkept v (List.mem_reverse.mp hv)
  exact .bind hkept fun kept hkept => h.array hkept

/-- Mapping gives properties of the items. -/
private theorem map_keeps : map.Keeps V E := by
  intro view input args hview hinput _ _
  refine .bind (itemsOf_meets h view hinput) fun items hitems => ?_
  exact .bind (.mapM fun v hv => property_meets h hview _ (hitems v hv))
    fun values hvalues => h.array hvalues

/-! ### Sorting -/

/-- Items with their keys, where the items satisfy `V`. -/
private theorem comesBefore_meets (a b : Value) :
    Meets (fun _ => True) E (comesBefore a b) := by
  unfold comesBefore
  split
  · trivial
  · trivial
  · split
    · trivial
    · exact h.raised nofun nofun nofun rfl rfl

/-- Sorted items are the items in another order; a sort of many items may crash. -/
private theorem sort_keeps : sort.Keeps V E := by
  intro view input args hview hinput _ hcrash
  refine .bind (.and_eq (itemsOf_meets h view hinput)) fun items hitems => ?_
  obtain ⟨hitems, heq⟩ := hitems
  have hkeyed (v : Value) (hv : v ∈ items) :
      Meets (fun e : Value × Value => V e.2) E (do return (← keyOf view args v, v)) :=
    .bind (keyOf_meets h hview args (hitems v hv)) fun _ _ => hitems v hv
  refine .bind (.and_eq (.mapM hkeyed)) fun entries hentries => ?_
  obtain ⟨hentries, hkeys⟩ := hentries
  -- Only a list of more than twenty entries may break off.
  have hlong (hlong : 20 < entries.length) : E .crash :=
    hcrash (.inr (.inr ⟨items, heq, Meets.length_of_mapM hkeys ▸ hlong⟩))
  refine .bind (perm_of_sortedByKey (fun a _ b _ => comesBefore_meets h a.1 b.1) hlong)
    fun sorted hsorted => h.array fun v hv => ?_
  obtain ⟨e, he, rfl⟩ := List.mem_map.mp hv
  exact hentries e (hsorted.mem_iff.mp he)

/-! ## All standard filters -/

/-- The standard filters keep what is handed down. -/
theorem standard_keeps : ∀ e ∈ standard, Filter.Keeps V E e.2 := by
  unfold standard
  simp only [List.forall_mem_cons]
  have hatom {f : View → Value → Arguments → Value} (hf : ∀ a b c, (f a b c).isAtom = true)
      (view : View) (input : Value) (args : Arguments) :
      view.All V E → V input → args.All V → (MayCrash view input args → E .crash) →
        Meets V E (.ok (f view input args)) :=
    fun _ _ _ _ => h.atom (hf view input args)
  -- In the order of the list.
  exact ⟨hatom fun _ _ _ => rfl, ofText_keeps h _, ofText_keeps h _, ofText_keeps h _,
    ofText_keeps h _, ofText_keeps h _, ofText_keeps h _, escape_keeps h,
    hatom fun _ _ _ => rfl, hatom fun _ _ _ => rfl, hatom fun _ _ _ => rfl,
    hatom fun _ _ _ => rfl, split_keeps h,
    join_keeps h, first_keeps h, last_keeps h, reverse_keeps h, uniq_keeps h, compact_keeps h,
    sort_keeps h, map_keeps h, default_keeps h, binary_keeps h _ _, binary_keeps h _ _,
    binary_keeps h _ _, dividing_keeps h _ _, dividing_keeps h _ _, abs_keeps h,
    fun _ _ _ _ _ _ => ofWhole_meets h _, fun _ _ _ _ _ _ => ofWhole_meets h _, round_keeps h,
    fun _ _ _ _ _ _ => unlessOrdered_meets h _, fun _ _ _ _ _ _ => unlessOrdered_meets h _,
    truncate_keeps h, slice_keeps h,
    List.forall_mem_nil _⟩

end Filter

/-! ## Pipelines -/

namespace Hereditary

variable {V : Value → Prop} {E : Error → Prop} (h : Hereditary V E) {view : View}
  (hview : view.All V E)
include h hview

/-- The arguments of a call are values of expressions. -/
private theorem arguments (call : FilterCall) :
    Meets (fun args : Arguments => args.All V) E (call.arguments view) := by
  refine .bind (.mapM fun e _ => h.evaluate hview e) fun positional hp => ?_
  have hkeyword (entry : String × Expression) (_ : entry ∈ call.keywords) :
      Meets (fun e : String × Value => V e.2) E
        (do return (entry.1, ← entry.2.evaluate view)) :=
    .bind (h.evaluate hview entry.2) fun _ hv => hv
  exact .bind (.mapM hkeyword) fun keywords hk => ⟨hp, hk⟩

/-- A call of a filter that is known, or an error that it is not. -/
private theorem call {filters : Assoc Filter}
    (hfilters : ∀ e ∈ filters, ∀ input args, V input → args.All V →
      Meets V E (e.2.run view input args)) (call : FilterCall) {input : Value} (hinput : V input) :
    Meets V E (call.evaluate filters view input) := by
  unfold FilterCall.evaluate
  -- A filter that is not registered is refused, or passes its input on.
  split
  · rename_i f hf
    refine .bind (h.arguments hview call) fun args hargs => ?_
    unfold Filter.apply
    dsimp only
    split
    · exact hfilters _ (Assoc.mem_of_get?_eq_some hf) input args hinput hargs
    · exact h.raised nofun nofun nofun rfl rfl
  · split
    · exact h.raised nofun nofun nofun rfl rfl
    · exact hinput

/-- The value of a pipeline satisfies `V`, if what its filters give in this view does. -/
theorem pipeline {filters : Assoc Filter}
    (hfilters : ∀ e ∈ filters, ∀ input args, V input → args.All V →
      Meets V E (e.2.run view input args)) (p : Pipeline) :
    Meets V E (p.evaluate filters view) :=
  .bind (h.evaluate hview p.source) fun _ hv =>
    .foldlM hv fun _ hw call _ => h.call hview hfilters call hw

end Hereditary

end Stencil
