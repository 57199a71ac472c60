import Stencil.Evaluation
import Stencil.Proofs.Collections

/-!
# Filters and accessors of one name

The filters for the size and the ends of a collection are named like the accessors that every
collection has behind a dot. Both give the same size. The ends of a list are those of the flattened
list for a filter and those of the list itself for an accessor, so they differ where an item at the
end is a list. An item that stands for another value is replaced by that on a path, and only there.
The last integer of a range is its end for a filter, but for an accessor it is the last one that can
be counted.

## Key definitions

- `Value.Agrees`: a filter and an accessor of one name give the same

## Key results

- `Filter.head?_flattened_iff`, `Filter.getLast?_flattened_iff`: when flattening keeps the ends
- `Value.agrees_iff`: where filters and accessors agree
-/

namespace Stencil

open Decimal

/-! ## Flattening -/

namespace Filter

/-- The value is a list. -/
def IsList (v : Value) : Prop :=
  ∃ items, v = .array items

/-- What is no list is put in front as it is. -/
theorem flattenOnto_of_not_isList {v : Value} (h : ¬ IsList v) (rest : List Value) :
    flattenOnto v rest = v :: rest := by
  cases v with
  | array items => exact absurd ⟨items, rfl⟩ h
  | _ => rfl

mutual

/-- What a value is flattened to stands in front of the rest. -/
theorem flattenOnto_eq_append (v : Value) (rest : List Value) :
    flattenOnto v rest = flattenOnto v [] ++ rest := by
  cases v with
  | array items => exact flattenAllOnto_eq_append items rest
  | _ => rfl

/-- The rest stands behind. -/
theorem flattenAllOnto_eq_append (items rest : List Value) :
    flattenAllOnto items rest = flattenAllOnto items [] ++ rest := by
  cases items with
  | nil => rfl
  | cons v vs =>
    rw [flattenAllOnto, flattenAllOnto, flattenOnto_eq_append v, flattenAllOnto_eq_append vs rest,
      flattenOnto_eq_append v (flattenAllOnto vs []), List.append_assoc]

end

/-- The flattened items of a list. -/
def flattened (items : List Value) : List Value :=
  flattenAllOnto items []

/-- The first value is flattened, and then the others. -/
theorem flattened_cons (v : Value) (vs : List Value) :
    flattened (v :: vs) = flattenOnto v [] ++ flattened vs :=
  flattenOnto_eq_append v _

/-- One list is flattened after the other. -/
theorem flattened_append (xs ys : List Value) :
    flattened (xs ++ ys) = flattened xs ++ flattened ys := by
  induction xs with
  | nil => rfl
  | cons v vs ih => rw [List.cons_append, flattened_cons, flattened_cons, ih, List.append_assoc]

mutual

/-- No list is left. -/
theorem not_isList_of_mem_flattenOnto (v : Value) {w : Value} (h : w ∈ flattenOnto v []) :
    ¬ IsList w := by
  cases v with
  | array items => exact not_isList_of_mem_flattened items h
  | _ =>
    obtain rfl := List.mem_singleton.mp h
    rintro ⟨items, hitems⟩
    exact nomatch hitems

/-- What is flattened holds no lists. -/
theorem not_isList_of_mem_flattened (items : List Value) {w : Value} (h : w ∈ flattened items) :
    ¬ IsList w := by
  cases items with
  | nil => exact nomatch h
  | cons v vs =>
    rw [flattened_cons, List.mem_append] at h
    rcases h with h | h
    · exact not_isList_of_mem_flattenOnto v h
    · exact not_isList_of_mem_flattened vs h

end

/-- The item at one end of a list, and that of the flattened list, as a path gives the first one.
They are the same exactly if the item is no list and stands for no other value. -/
private theorem eq_liquid_iff {item? kept? : Option Value} (hlist : ∀ w ∈ kept?, ¬ IsList w)
    (hkept : ∀ v ∈ item?, ¬ IsList v → kept? = some v) (hnone : item? = none → kept? = none) :
    kept?.getD .nil = (item?.getD .nil).liquid ↔ ∀ v ∈ item?, ¬ IsList v ∧ v.liquid = v := by
  cases item? with
  | none =>
    rw [hnone rfl]
    simp [Value.liquid]
  | some v =>
    constructor
    · intro h w hw
      obtain rfl : v = w := Option.some.inj hw
      have hv : ¬ IsList v := by
        rintro ⟨inner, rfl⟩
        -- A list stands for itself, but none is left in the flattened list.
        cases kept? with
        | none => exact nomatch h
        | some kept => exact hlist kept rfl ⟨inner, h⟩
      rw [hkept v rfl hv] at h
      exact ⟨hv, h.symm⟩
    · intro h
      obtain ⟨hv, hliquid⟩ := h v rfl
      rw [hkept v rfl hv]
      exact hliquid.symm

/-- The first item of the flattened list. -/
theorem head?_flattened_iff (items : List Value) :
    (flattened items).head?.getD .nil = (items.head?.getD .nil).liquid
      ↔ ∀ v ∈ items.head?, ¬ IsList v ∧ v.liquid = v := by
  refine eq_liquid_iff (fun w hw => not_isList_of_mem_flattened items (List.mem_of_mem_head? hw))
    (fun v hv hlist => ?_) fun hnone => ?_
  · obtain ⟨vs, rfl⟩ := List.head?_eq_some_iff.mp hv
    rw [flattened_cons, flattenOnto_of_not_isList hlist]
    rfl
  · rw [List.head?_eq_none_iff.mp hnone]
    rfl

/-- And the last one. -/
theorem getLast?_flattened_iff (items : List Value) :
    (flattened items).getLast?.getD .nil = (items.getLast?.getD .nil).liquid
      ↔ ∀ v ∈ items.getLast?, ¬ IsList v ∧ v.liquid = v := by
  refine eq_liquid_iff (fun w hw => not_isList_of_mem_flattened items (List.mem_of_getLast? hw))
    (fun v hv hlist => ?_) fun hnone => ?_
  · obtain ⟨vs, rfl⟩ := List.getLast?_eq_some_iff.mp hv
    rw [flattened_append, flattened_cons, flattenOnto_of_not_isList hlist]
    simp [flattened, flattenAllOnto]
  · rw [List.getLast?_eq_none_iff.mp hnone]
    rfl

end Filter

/-! ## The ends of a range -/

namespace Collection

variable {first last : Int64}

/-- A range that runs backwards is empty. -/
theorem length_range_of_not_le (h : ¬ first ≤ last) : (range first last).length = 0 :=
  (rangeLength_eq_zero_iff first last).mpr (Int64.lt_iff_toInt_lt.mp (Int64.not_le.mp h))

/-- The last integer that can be counted. -/
theorem exists_last_range (h : first ≤ last) :
    ∃ n : Int64, (range first last).last = .int n
      ∧ n.toInt = min last.toInt (first.toInt + (maxWhole - 1)) := by
  have hle := Int64.le_iff_toInt_le.mp h
  have hlength : (range first last).length
      = min (last.toInt - first.toInt + 1).toNat maxWhole.toNat := rfl
  -- A length is a whole number of 64 bits, so a longer range counts up to the greatest one only.
  simp only [maxWhole] at hlength ⊢
  have hindex : (range first last).length - 1 < (range first last).length := by omega
  obtain ⟨n, hget, hn⟩ := get?_range hindex
  refine ⟨n, ?_, by omega⟩
  rw [Collection.last, if_neg (by omega), hget]
  rfl

theorem last_range_of_not_le (h : ¬ first ≤ last) : (range first last).last = .nil :=
  if_pos (length_range_of_not_le h)

/-- The first member of a range is where it starts, if there is one. -/
theorem first_range (first last : Int64) :
    (range first last).first = if first ≤ last then .int first else .nil := by
  rw [Collection.first]
  split
  · rename_i h
    have hle := Int64.le_iff_toInt_le.mp h
    have hindex : 0 < (range first last).length := by
      show 0 < min (last.toInt - first.toInt + 1).toNat maxWhole.toNat
      simp only [maxWhole]
      omega
    obtain ⟨n, hget, hn⟩ := get?_range hindex
    rw [hget, Int64.toInt.inj (hn.trans (Int.add_zero _))]
    rfl
  · rename_i h
    have hempty := length_range_of_not_le h
    rw [get?, if_neg (by omega)]
    rfl

end Collection

namespace Value

/-! ## Agreement -/

variable {view : View}

/-- The filter gives what a path gives that goes on from the value to the name behind a dot. -/
def Agrees (view : View) (filter : Filter) (name : String) (v : Value) : Prop :=
  ∃ answer, filter.apply view v {} = .ok answer
    ∧ Expression.follow view [.mk (.literal (.str name)) true] v = .ok answer

/-- If both are known, they have to be the same. A path replaces a member that stands for another
value. -/
theorem agrees_iff_eq {filter : Filter} {name : String} {v x y : Value}
    (hfilter : filter.apply view v {} = .ok x)
    (haccessor : v.lookup view (.str name) true = .ok (some y)) :
    Agrees view filter name v ↔ x = y.liquid := by
  -- What a path arrives at is replaced like every value that is read, an answer too.
  have hpath : Expression.follow view [.mk (.literal (.str name)) true] v = .ok y.liquid := by
    have hkey : v.lookup view (Value.str name).scalar true = .ok (some y) := haccessor
    simp only [Expression.follow, Expression.evaluate, Literal.value, bind, Except.bind, hkey]
  constructor
  · rintro ⟨answer, hx, hy⟩
    rw [hfilter] at hx
    rw [hpath] at hy
    rw [Except.ok.inj hx, Except.ok.inj hy]
  · rintro rfl
    exact ⟨_, hfilter, hpath⟩

/-! ### Lists -/

variable (items : List Value)

/-- An array has one size. -/
theorem agrees_size_array : Agrees view .size "size" (.array items) :=
  (agrees_iff_eq rfl rfl).mpr rfl

/-- The first item agrees if it is no list and turns into itself. -/
theorem agrees_first_array_iff :
    Agrees view .first "first" (.array items)
      ↔ ∀ v ∈ items.head?, ¬ Filter.IsList v ∧ v.liquid = v := by
  have haccessor : (Value.array items).lookup view (.str "first") true
      = .ok (some (items.head?.getD .nil)) := by
    rw [List.head?_eq_getElem?]
    rfl
  rw [← Filter.head?_flattened_iff]
  exact agrees_iff_eq rfl haccessor

/-- The last member of a list is found from its length. -/
theorem last_items : (Collection.items items).last = items.getLast?.getD .nil := by
  rw [List.getLast?_eq_getElem?]
  unfold Collection.last
  split
  · rename_i hempty
    rw [List.eq_nil_of_length_eq_zero hempty]
    rfl
  · rfl

/-- So does the last one. -/
theorem agrees_last_array_iff :
    Agrees view .last "last" (.array items)
      ↔ ∀ v ∈ items.getLast?, ¬ Filter.IsList v ∧ v.liquid = v := by
  have haccessor : (Value.array items).lookup view (.str "last") true
      = .ok (some (items.getLast?.getD .nil)) := by
    rw [← last_items]
    rfl
  rw [← Filter.getLast?_flattened_iff]
  exact agrees_iff_eq rfl haccessor

/-! ### Ranges -/

variable (first last : Int64)

/-- A range has one size. -/
theorem agrees_size_range : Agrees view .size "size" (.range first last) :=
  (agrees_iff_eq rfl rfl).mpr rfl

theorem agrees_first_range : Agrees view .first "first" (.range first last) := by
  refine (agrees_iff_eq rfl rfl).mpr ?_
  rw [Collection.first_range]
  split <;> rfl

/-- The last integer that can be counted is the end of the range if all of them can. -/
theorem agrees_last_range_iff :
    Agrees view .last "last" (.range first last) ↔ (rangeItems first last).length ≤ maxWhole := by
  rw [agrees_iff_eq rfl rfl, length_rangeItems]
  split
  · rename_i hle
    obtain ⟨n, hn, hplace⟩ := Collection.exists_last_range hle
    have hle := Int64.le_iff_toInt_le.mp hle
    -- The last item that is counted is the last one exactly if the length was not cut.
    rw [hn, show (Value.int n).liquid = .int n from rfl, Value.int.injEq, ← Int64.toInt_inj, hplace]
    simp only [maxWhole]
    omega
  · rename_i hlt
    rw [Collection.last_range_of_not_le hlt, show Value.nil.liquid = .nil from rfl]
    have hlt := Int64.lt_iff_toInt_lt.mp (Int64.not_le.mp hlt)
    simp only [maxWhole, true_iff]
    omega

/-! ### Drops -/

/-- The items of a drop are not flattened. -/
theorem agrees_drop {d : Drop} {items : List Value} (hitems : d.items? = some items)
    (hmember : ∀ name, d.member? view name = .ok none) :
    Agrees view .size "size" (.drop d)
      ∧ (Agrees view .first "first" (.drop d) ↔ ∀ v ∈ items.head?, v.liquid = v)
      ∧ (Agrees view .last "last" (.drop d) ↔ ∀ v ∈ items.getLast?, v.liquid = v) := by
  have hsize : Filter.size.apply view (.drop d) {} = .ok (.ofCount items.length) := by
    show Except.ok (Value.ofCount ((d.items?.map List.length).getD 0)) = _
    rw [hitems]
    rfl
  have hfirst : Filter.first.apply view (.drop d) {} = .ok (Collection.items items).first := by
    show Except.ok ((d.items?.getD [.drop d]).head?.getD .nil) = _
    rw [hitems, Option.getD_some, List.head?_eq_getElem?]
    rfl
  have hlast : Filter.last.apply view (.drop d) {} = .ok (Collection.items items).last := by
    show Except.ok ((d.items?.getD [.drop d]).getLast?.getD .nil) = _
    rw [hitems, last_items]
    rfl
  -- What a filter gives is turned into a value of the language only where it is looked up.
  have hends (item? : Option Value) :
      item?.getD .nil = (item?.getD .nil).liquid ↔ ∀ v ∈ item?, v.liquid = v := by
    cases item? with
    | none => simp [Value.liquid]
    | some v => exact ⟨fun h w hw => Option.some.inj hw ▸ h.symm, fun h => (h v rfl).symm⟩
  refine ⟨(agrees_iff_eq hsize (lookup_drop_of_some hitems (hmember _) rfl)).mpr rfl, ?_, ?_⟩
  · rw [agrees_iff_eq hfirst (lookup_drop_of_some hitems (hmember _) rfl), ← hends,
      List.head?_eq_getElem?]
    rfl
  · rw [agrees_iff_eq hlast (lookup_drop_of_some hitems (hmember _) rfl), ← hends, last_items]

/-- The filters for the size, the first and the last item give what the accessors of these names
give, for every list, every range and every drop with items that answers no name by itself. Only an
item at the end that stands for another value is replaced by that on a path and not by a filter, the
ends of a list that are lists themselves are another thing for a filter, and so is the end of a
range of more integers than can be counted. -/
theorem agrees_iff (view : View) :
    (∀ items, Agrees view .size "size" (.array items)
      ∧ (Agrees view .first "first" (.array items)
        ↔ ∀ v ∈ items.head?, ¬ Filter.IsList v ∧ v.liquid = v)
      ∧ (Agrees view .last "last" (.array items)
        ↔ ∀ v ∈ items.getLast?, ¬ Filter.IsList v ∧ v.liquid = v))
    ∧ (∀ first last, Agrees view .size "size" (.range first last)
      ∧ Agrees view .first "first" (.range first last)
      ∧ (Agrees view .last "last" (.range first last)
        ↔ (rangeItems first last).length ≤ maxWhole))
    ∧ ∀ (d : Drop) (items : List Value), d.items? = some items →
      (∀ name, d.member? view name = .ok none) →
      Agrees view .size "size" (.drop d)
        ∧ (Agrees view .first "first" (.drop d) ↔ ∀ v ∈ items.head?, v.liquid = v)
        ∧ (Agrees view .last "last" (.drop d) ↔ ∀ v ∈ items.getLast?, v.liquid = v) := by
  refine ⟨fun items => ?_, fun first last => ?_, fun d items hitems hmember => ?_⟩
  · exact ⟨agrees_size_array items, agrees_first_array_iff items, agrees_last_array_iff items⟩
  · exact ⟨agrees_size_range first last, agrees_first_range first last,
      agrees_last_range_iff first last⟩
  · exact agrees_drop hitems hmember

/-- A list inside another one that is not at its ends, and a drop whose first item is a list. -/
theorem agrees_inner :
    Agrees {} .first "first" (.array [.int 0, .array [.int 1, .int 2], .int 3])
      ∧ Agrees {} .first "first" (.drop (.host 0 [] [] none none (some [.array [.int 1]]) "")) := by
  obtain ⟨hlists, -, hdrops⟩ := agrees_iff {}
  constructor
  · refine (hlists [.int 0, .array [.int 1, .int 2], .int 3]).2.1.mpr ?_
    rintro v ⟨⟩
    exact ⟨nofun, rfl⟩
  · refine (hdrops (.host 0 [] [] none none (some [.array [.int 1]]) "") [.array [.int 1]] rfl
      fun _ => rfl).2.1.mpr ?_
    rintro v ⟨⟩
    rfl

/-- The first item of a list whose first item is a list, that of a list and of a drop whose first
item stands for a text, and the end of the widest range. -/
theorem not_agrees :
    let item : Value := .drop (.host 0 [] [] (some (.str "x")) none none "D")
    ¬ Agrees {} .first "first" (.array [.array [.int 1, .int 2], .int 3])
      ∧ ¬ Agrees {} .first "first" (.array [item])
      ∧ ¬ Agrees {} .first "first" (.drop (.host 1 [] [] none none (some [item]) ""))
      ∧ ¬ Agrees {} .last "last" (.range Int64.minValue Int64.maxValue) := by
  intro item
  -- A drop that lists the item: the same is lost through a drop as through an array.
  let holder : Drop := .host 1 [] [] none none (some [item]) ""
  have hholder : holder.items? = some [item] := rfl
  refine ⟨?_, ?_, ?_, ?_⟩
  · rw [agrees_first_array_iff]
    exact fun h => (h _ rfl).1 ⟨[.int 1, .int 2], rfl⟩
  · rw [agrees_first_array_iff]
    exact fun h => nomatch (h item rfl).2
  · intro h
    have hfirst := (agrees_drop hholder fun _ => rfl).2.1.mp h
    exact nomatch hfirst item rfl
  · rw [agrees_last_range_iff, length_rangeItems]
    decide

end Value

end Stencil
