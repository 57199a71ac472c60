import Mathlib.Data.List.Perm.Subperm
import Stencil.Evaluation
import Stencil.Proofs.Accessors

/-!
# Equality of values

Without numbers that have a fraction part, equality of values is an equivalence: it goes through
lists item by item, and through objects name by name, whatever the order in which the names were
bound. What relies on it can be said in terms of its classes. Of a flattened list `uniq` keeps the
first member of each class, so it changes nothing about what the list contains.

## Key definitions

- `Value.Exact`: no number with a fraction part at any depth, and no object that binds a name twice
- `Value.leaders`: the items of a list that no item before them is equal to

## Key results

- `Value.nested_induction`: induction along what lists hold and what objects bind
- `Value.same_object_iff`: objects are equal if they bind the same names to equal values
- `Value.same_refl`, `Value.same_symm`, `Value.same_trans`
- `Filter.uniq_of_exact`: what `uniq` keeps
- `Value.exact_equality`: the laws of equality, and what follows for `uniq` and `contains`
-/

namespace Stencil

namespace Value

/-! ## Induction -/

/-- The value is a list or an object. -/
def isNested : Value → Bool
  | array _ | object _ => true
  | _ => false

/-- Induction along what lists hold and what objects bind. -/
@[elab_as_elim]
theorem nested_induction {P : Value → Prop}
    (array : ∀ items, (∀ v ∈ items, P v) → P (array items))
    (object : ∀ entries : Object, (∀ entry ∈ entries, P entry.2) → P (object entries))
    (atom : ∀ v, v.isNested = false → P v) (v : Value) : P v := by
  match hv : v with
  | .array items => exact array items fun w hw => nested_induction array object atom w
  | .object entries =>
    exact object entries fun entry he => nested_induction array object atom entry.2
  | .nil | .bool _ | .int _ | .float _ | .str _ | .range .. | .drop _ => exact atom _ rfl
termination_by sizeOf v
decreasing_by
  · have := List.sizeOf_lt_of_mem hw
    simp only [Value.array.sizeOf_spec]
    omega
  · have := List.sizeOf_lt_of_mem he
    obtain ⟨key, w⟩ := entry
    simp only [Value.object.sizeOf_spec, Prod.mk.sizeOf_spec] at this ⊢
    omega

/-! ## Exact values -/

/-- The value is a number with a fraction part. -/
def isFloat : Value → Bool
  | float _ => true
  | _ => false

/-- No name is bound twice, if the value is an object. -/
def bindsOnce : Value → Bool
  | object entries => decide (Assoc.keys entries).Nodup
  | _ => true

mutual

/-- Whether `p` holds of the value and of everything that it holds or binds, at any depth. Drops
hold nothing. -/
def everywhere (p : Value → Bool) : Value → Bool
  | array items => p (array items) && everywhereItems p items
  | object entries => p (object entries) && everywhereEntries p entries
  | v => p v

def everywhereItems (p : Value → Bool) : List Value → Bool
  | [] => true
  | v :: vs => v.everywhere p && everywhereItems p vs

def everywhereEntries (p : Value → Bool) : List (String × Value) → Bool
  | [] => true
  | (_, v) :: es => v.everywhere p && everywhereEntries p es

end

/-- Of items a property holds everywhere if it does in each of them. -/
theorem everywhereItems_iff {p : Value → Bool} {items : List Value} :
    everywhereItems p items = true ↔ ∀ v ∈ items, v.everywhere p = true := by
  induction items with
  | nil => simp [everywhereItems]
  | cons v vs ih => simp [everywhereItems, ih]

/-- So it is with the values under names. -/
theorem everywhereEntries_iff {p : Value → Bool} {entries : List (String × Value)} :
    everywhereEntries p entries = true ↔ ∀ entry ∈ entries, entry.2.everywhere p = true := by
  induction entries with
  | nil => simp [everywhereEntries]
  | cons entry es ih => simp only [everywhereEntries, Bool.and_eq_true, ih, List.forall_mem_cons]

/-- What holds everywhere in a value holds of the value. -/
theorem of_everywhere {p : Value → Bool} {v : Value} (h : v.everywhere p = true) : p v = true := by
  cases v with
  | array | object => exact (Bool.and_eq_true_iff.mp h).1
  | _ => exact h

/-- Everywhere in an array is the array itself and its items. -/
theorem everywhere_array_iff {p : Value → Bool} {items : List Value} :
    (array items).everywhere p = true
      ↔ p (array items) = true ∧ ∀ v ∈ items, v.everywhere p = true := by
  rw [everywhere, Bool.and_eq_true, everywhereItems_iff]

/-- Everywhere in a map is the map itself and its values. -/
theorem everywhere_object_iff {p : Value → Bool} {entries : Object} :
    (object entries).everywhere p = true
      ↔ p (object entries) = true ∧ ∀ entry ∈ entries, entry.2.everywhere p = true := by
  rw [everywhere, Bool.and_eq_true, everywhereEntries_iff]

/-- A value whose equality to others is exact: there is no number with a fraction part in it, at any
depth, and its objects are like all that are built by binding names, so they bind no name twice. -/
structure Exact (v : Value) : Prop where
  floatFree : v.everywhere (!·.isFloat) = true
  bindsOnce : v.everywhere Value.bindsOnce = true

instance (v : Value) : Decidable v.Exact :=
  decidable_of_iff (v.everywhere (!·.isFloat) = true ∧ v.everywhere Value.bindsOnce = true)
    ⟨fun h => ⟨h.1, h.2⟩, fun h => ⟨h.floatFree, h.bindsOnce⟩⟩

/-- An array is exact as its items are. -/
theorem exact_array_iff {items : List Value} : (array items).Exact ↔ ∀ v ∈ items, v.Exact := by
  constructor
  · intro h v hv
    exact ⟨(everywhere_array_iff.mp h.floatFree).2 v hv,
      (everywhere_array_iff.mp h.bindsOnce).2 v hv⟩
  · intro h
    exact ⟨everywhere_array_iff.mpr ⟨rfl, fun v hv => (h v hv).floatFree⟩,
      everywhere_array_iff.mpr ⟨rfl, fun v hv => (h v hv).bindsOnce⟩⟩

namespace Exact

/-- An exact value is no float. -/
theorem isFloat_eq_false {v : Value} (h : v.Exact) : v.isFloat = false := by
  simpa using of_everywhere h.floatFree

/-- The items of an exact array are exact. -/
theorem item {items : List Value} (h : (array items).Exact) {v : Value} (hv : v ∈ items) :
    v.Exact :=
  exact_array_iff.mp h v hv

/-- So are the values of an exact map. -/
theorem entry {entries : Object} (h : (object entries).Exact) {entry : String × Value}
    (he : entry ∈ entries) : entry.2.Exact :=
  ⟨(everywhere_object_iff.mp h.floatFree).2 entry he,
    (everywhere_object_iff.mp h.bindsOnce).2 entry he⟩

/-- An exact map has no name twice. -/
theorem nodup_keys {entries : Object} (h : (object entries).Exact) :
    (Assoc.keys entries).Nodup :=
  of_decide_eq_true (of_everywhere h.bindsOnce)

/-- What is found in an exact map is exact. -/
theorem of_get? {entries : Object} (h : (object entries).Exact) {name : String} {v : Value}
    (hv : Assoc.get? entries name = some v) : v.Exact :=
  h.entry (Assoc.mem_of_get?_eq_some hv)

end Exact

/-! ## Equality of lists and objects -/

/-- Lists are equal if they are as long as each other and equal place by place. -/
theorem same_array_iff {xs ys : List Value} :
    (array xs).same (array ys) = true ↔ xs.length = ys.length ∧
      ∀ (i : Nat) (x y : Value), xs[i]? = some x → ys[i]? = some y → x.same y = true := by
  rw [same]
  -- Item by item; the lengths have to run out together.
  induction xs generalizing ys with
  | nil => cases ys <;> simp [sameItems]
  | cons x xs ih =>
    cases ys with
    | nil => simp [sameItems]
    | cons y ys =>
      rw [sameItems, Bool.and_eq_true, ih, List.length_cons, List.length_cons,
        Nat.add_right_cancel_iff]
      constructor
      · rintro ⟨hxy, hlength, hrest⟩
        refine ⟨hlength, fun i x' y' hx hy => ?_⟩
        cases i with
        | zero =>
          obtain rfl := Option.some.inj hx
          obtain rfl := Option.some.inj hy
          exact hxy
        | succ i => exact hrest i x' y' hx hy
      · rintro ⟨hlength, hall⟩
        exact ⟨hall 0 x y rfl rfl, hlength, fun i => hall (i + 1)⟩

/-- Entries agree with a map that has the same value under each of their names. -/
theorem sameEntries_iff {es : List (String × Value)} {fs : Object} :
    sameEntries es fs = true
      ↔ ∀ entry ∈ es, ∃ w, Assoc.get? fs entry.1 = some w ∧ entry.2.same w = true := by
  induction es with
  | nil => simp [sameEntries]
  | cons entry es ih =>
    rw [sameEntries, List.forall_mem_cons, ← ih]
    cases Assoc.get? fs entry.1 <;> simp

/-- Related results are found or missing together. -/
theorem isSome_eq_of_rel {α β : Type} {r : α → β → Prop} {a : Option α} {b : Option β}
    (h : Option.Rel r a b) : a.isSome = b.isSome := by
  cases h <;> rfl

/-- A missing result is related to a missing one only. -/
theorem eq_none_of_rel_none {α β : Type} {r : α → β → Prop} {b : Option β}
    (h : Option.Rel r none b) : b = none := by
  cases h
  rfl

/-- A result that is found is related to one that is found. -/
theorem exists_of_rel_some {α β : Type} {r : α → β → Prop} {a : α} {b : Option β}
    (h : Option.Rel r (some a) b) : ∃ b', b = some b' ∧ r a b' := by
  cases h with
  | some hab => exact ⟨_, rfl, hab⟩

/-- Objects are equal if they bind the same names to equal values, in whatever order. If each of
them binds a name once, it takes one look at the number of the names and one from the names of the
one to the other. -/
theorem same_object_iff {es fs : Object} (hes : (Assoc.keys es).Nodup)
    (hfs : (Assoc.keys fs).Nodup) :
    (object es).same (object fs) = true
      ↔ ∀ name, Option.Rel (fun v w => v.same w = true) (Assoc.get? es name)
          (Assoc.get? fs name) := by
  have hlength : ∀ m : Object, (Assoc.keys m).length = m.length := fun m => List.length_map _
  rw [same, Bool.and_eq_true, beq_iff_eq, sameEntries_iff]
  constructor
  · rintro ⟨hcount, hentries⟩ name
    have hsub : Assoc.keys es ⊆ Assoc.keys fs := by
      intro key hkey
      obtain ⟨v, hv⟩ := Option.isSome_iff_exists.mp ((Assoc.mem_keys_iff es key).mp hkey)
      obtain ⟨w, hw, -⟩ := hentries _ (Assoc.mem_of_get?_eq_some hv)
      exact (Assoc.mem_keys_iff fs key).mpr (Option.isSome_iff_exists.mpr ⟨w, hw⟩)
    -- As many names, each of them once: the names of the other are no more than these.
    have hperm : (Assoc.keys es).Perm (Assoc.keys fs) :=
      (List.subperm_of_subset hes hsub).perm_of_length_le (by rw [hlength, hlength, hcount])
    -- A name of the one map is found in the other, and none is found beyond these.
    cases hv : Assoc.get? es name with
    | some v =>
      obtain ⟨w, hw, hvw⟩ := hentries _ (Assoc.mem_of_get?_eq_some hv)
      rw [hw]
      exact .some hvw
    | none =>
      have hnot : name ∉ Assoc.keys fs := by
        rw [← hperm.mem_iff, Assoc.mem_keys_iff, hv]
        exact Bool.false_ne_true
      rw [Assoc.mem_keys_iff, Option.not_isSome_iff_eq_none] at hnot
      rw [hnot]
      exact .none
  · intro h
    have hperm : (Assoc.keys es).Perm (Assoc.keys fs) := by
      refine (List.perm_ext_iff_of_nodup hes hfs).mpr fun name => ?_
      -- Related results are there together, so the maps have the same names.
      rw [Assoc.mem_keys_iff, Assoc.mem_keys_iff, isSome_eq_of_rel (h name)]
    refine ⟨by rw [← hlength, ← hlength, hperm.length_eq], fun entry hentry => ?_⟩
    have hrel := h entry.1
    rw [Assoc.get?_of_mem hes hentry] at hrel
    exact exists_of_rel_some hrel

/-- Without numbers that have a fraction part, drops are equal to themselves only, and everything
else that is neither a list nor an object is equal to nothing but itself. -/
theorem same_atom_iff {v w : Value} (hatom : v.isNested = false) (hv : v.isFloat = false)
    (hw : w.isFloat = false) :
    v.same w = true
      ↔ v = w ∨ ∃ d e, v = drop d ∧ w = drop e ∧ d.identity = e.identity := by
  cases v <;> cases w <;> simp_all [same, isNested, isFloat]

/-! ## The laws of an equivalence -/

/-- Equality is reflexive, by induction on the value. -/
theorem same_refl {v : Value} (hv : v.Exact) : v.same v = true := by
  induction v using nested_induction with
  | array items ih =>
    refine same_array_iff.mpr ⟨rfl, fun i x y hx hy => ?_⟩
    obtain rfl := Option.some.inj (hx.symm.trans hy)
    have hmem := List.mem_of_getElem? hx
    exact ih x hmem (hv.item hmem)
  | object entries ih =>
    refine (same_object_iff hv.nodup_keys hv.nodup_keys).mpr fun name => ?_
    cases hget : Assoc.get? entries name with
    | none => exact .none
    | some v => exact .some (ih _ (Assoc.mem_of_get?_eq_some hget) (hv.of_get? hget))
  | atom v hatom =>
    exact (same_atom_iff hatom hv.isFloat_eq_false hv.isFloat_eq_false).mpr (.inl rfl)

/-- Equality is symmetric, by induction on the first value. -/
theorem same_symm {v w : Value} (hv : v.Exact) (hw : w.Exact) (h : v.same w = true) :
    w.same v = true := by
  induction v using nested_induction generalizing w with
  | array xs ih =>
    cases w with
    | array ys =>
      obtain ⟨hlength, hitems⟩ := same_array_iff.mp h
      refine same_array_iff.mpr ⟨hlength.symm, fun i y x hy hx => ?_⟩
      have hxs := List.mem_of_getElem? hx
      exact ih x hxs (hv.item hxs) (hw.item (List.mem_of_getElem? hy)) (hitems i x y hx hy)
    | _ => exact nomatch h
  | object es ih =>
    cases w with
    | object fs =>
      have hnames := (same_object_iff hv.nodup_keys hw.nodup_keys).mp h
      refine (same_object_iff hw.nodup_keys hv.nodup_keys).mpr fun name => ?_
      cases hx : Assoc.get? es name with
      | none =>
        have hy : Assoc.get? fs name = none := eq_none_of_rel_none (hx ▸ hnames name)
        rw [hy]
        exact .none
      | some x =>
        obtain ⟨y, hy, hxy⟩ := exists_of_rel_some (hx ▸ hnames name)
        rw [hy]
        exact .some (ih _ (Assoc.mem_of_get?_eq_some hx) (hv.of_get? hx) (hw.of_get? hy) hxy)
    | _ => exact nomatch h
  | atom v hatom =>
    -- Atoms are equal, or drops of one identity.
    rcases (same_atom_iff hatom hv.isFloat_eq_false hw.isFloat_eq_false).mp h with
      rfl | ⟨d, e, rfl, rfl, hde⟩
    · exact h
    · exact beq_iff_eq.mpr hde.symm

/-- Equality is transitive, by induction on the first value. -/
theorem same_trans {u v w : Value} (hu : u.Exact) (hv : v.Exact) (hw : w.Exact)
    (huv : u.same v = true) (hvw : v.same w = true) : u.same w = true := by
  induction u using nested_induction generalizing v w with
  | array xs ih =>
    cases v with
    | array ys =>
      cases w with
      | array zs =>
        obtain ⟨hlength, hitems⟩ := same_array_iff.mp huv
        obtain ⟨hlength', hitems'⟩ := same_array_iff.mp hvw
        refine same_array_iff.mpr ⟨hlength.trans hlength', fun i x z hx hz => ?_⟩
        obtain ⟨hi, -⟩ := List.getElem?_eq_some_iff.mp hx
        -- The array between has an item at the same place.
        have hy : ys[i]? = some ys[i] := List.getElem?_eq_getElem (hlength ▸ hi)
        have hxs := List.mem_of_getElem? hx
        exact ih x hxs (hu.item hxs) (hv.item (List.mem_of_getElem? hy))
          (hw.item (List.mem_of_getElem? hz)) (hitems i x _ hx hy) (hitems' i _ z hy hz)
      | _ => exact nomatch hvw
    | _ => exact nomatch huv
  | object es ih =>
    cases v with
    | object fs =>
      cases w with
      | object gs =>
        have hnames := (same_object_iff hu.nodup_keys hv.nodup_keys).mp huv
        have hnames' := (same_object_iff hv.nodup_keys hw.nodup_keys).mp hvw
        refine (same_object_iff hu.nodup_keys hw.nodup_keys).mpr fun name => ?_
        cases hx : Assoc.get? es name with
        | none =>
          have hy : Assoc.get? fs name = none := eq_none_of_rel_none (hx ▸ hnames name)
          have hz : Assoc.get? gs name = none := eq_none_of_rel_none (hy ▸ hnames' name)
          rw [hz]
          exact .none
        | some x =>
          -- The map between has the same name.
          obtain ⟨y, hy, hxy⟩ := exists_of_rel_some (hx ▸ hnames name)
          obtain ⟨z, hz, hyz⟩ := exists_of_rel_some (hy ▸ hnames' name)
          rw [hz]
          exact .some (ih _ (Assoc.mem_of_get?_eq_some hx) (hu.of_get? hx) (hv.of_get? hy)
            (hw.of_get? hz) hxy hyz)
      | _ => exact nomatch hvw
    | _ => exact nomatch huv
  | atom u hatom =>
    rcases (same_atom_iff hatom hu.isFloat_eq_false hv.isFloat_eq_false).mp huv with
      rfl | ⟨d, e, rfl, rfl, hde⟩
    · exact hvw
    · rcases (same_atom_iff rfl hv.isFloat_eq_false hw.isFloat_eq_false).mp hvw with
        rfl | ⟨e', f, he, rfl, hef⟩
      · exact huv
      · obtain rfl := Value.drop.inj he
        exact beq_iff_eq.mpr (hde.trans hef)

/-! ## The first members of the classes -/

/-- The items that nothing in `before` and no item before them is equal to, in order. -/
def leadersAfter (before items : List Value) : List Value :=
  ((items.zipIdx before.length).filter fun (item, place) =>
    !anySame ((before ++ items).take place) item).map Prod.fst

/-- The items of a list that no item before them is equal to, in order. -/
def leaders (items : List Value) : List Value :=
  leadersAfter [] items

/-- An item leads its class if none like it stands before it. -/
theorem leadersAfter_cons (before : List Value) (item : Value) (items : List Value) :
    leadersAfter before (item :: items)
      = if anySame before item then leadersAfter (before ++ [item]) items
        else item :: leadersAfter (before ++ [item]) items := by
  have hbehind : before ++ item :: items = before ++ [item] ++ items := by simp
  have hlength : (before ++ [item]).length = before.length + 1 := by simp
  rw [leadersAfter, List.zipIdx_cons, List.filter_cons, leadersAfter, hlength, ← hbehind]
  cases hold : anySame before item <;> simp [hold]

/-- The leaders keep their order. -/
theorem leaders_sublist (items : List Value) : (leaders items).Sublist items := by
  have hplaces := (List.filter_sublist (l := items.zipIdx)
    (p := fun (item, place) => !anySame (items.take place) item)).map Prod.fst
  rwa [List.zipIdx_map_fst] at hplaces

/-- A value is met if it is equal to an item. -/
theorem anySame_iff {items : List Value} {needle : Value} :
    anySame items needle = true ↔ ∃ v ∈ items, v.same needle = true :=
  List.any_eq_true

/-- One more item meets the values that are equal to it. -/
theorem anySame_concat (items : List Value) (item needle : Value) :
    anySame (items ++ [item]) needle = (anySame items needle || item.same needle) := by
  simp [anySame]

/-- Of the members of a class the first one is kept and no other, and none if the class has been met
before. -/
theorem filter_leadersAfter {before items : List Value} (hbefore : ∀ w ∈ before, w.Exact)
    (hitems : ∀ w ∈ items, w.Exact) {v : Value} (hv : v.Exact) :
    (leadersAfter before items).filter v.same
      = if anySame before v then [] else (items.filter v.same).take 1 := by
  -- What stands before grows by the item with each turn.
  induction items generalizing before with
  | nil => simp [leadersAfter]
  | cons item items ih =>
    obtain ⟨hitem, hitems⟩ := List.forall_mem_cons.mp hitems
    have hbefore' : ∀ w ∈ before ++ [item], w.Exact := by
      rw [List.forall_mem_append]
      exact ⟨hbefore, by simpa using hitem⟩
    have hrest := ih hbefore' hitems
    rw [anySame_concat] at hrest
    rw [leadersAfter_cons]
    by_cases hclass : v.same item = true
    · -- The item is in the class, so the class has been met exactly if the item has.
      have hback := same_symm hv hitem hclass
      have hmet : anySame before item = anySame before v := by
        rw [Bool.eq_iff_iff, anySame_iff, anySame_iff]
        constructor
        · rintro ⟨w, hw, hwi⟩
          exact ⟨w, hw, same_trans (hbefore w hw) hitem hv hwi hback⟩
        · rintro ⟨w, hw, hwv⟩
          exact ⟨w, hw, same_trans (hbefore w hw) hv hitem hwv hclass⟩
      rw [hback, Bool.or_true, if_pos rfl] at hrest
      rw [hmet]
      split
      · exact hrest
      · rw [List.filter_cons_of_pos hclass, List.filter_cons_of_pos hclass, hrest]
        rfl
    · -- The item is in another class, and changes nothing for this one.
      have hout : item.same v = false := by
        rw [← Bool.not_eq_true]
        exact fun h => hclass (same_symm hitem hv h)
      rw [hout, Bool.or_false] at hrest
      rw [List.filter_cons_of_neg hclass, ← hrest]
      split
      · rfl
      · rw [List.filter_cons_of_neg hclass]

/-- Of each class the first item is kept. -/
theorem filter_leaders {items : List Value} (hitems : ∀ w ∈ items, w.Exact) {v : Value}
    (hv : v.Exact) : (leaders items).filter v.same = (items.filter v.same).take 1 :=
  filter_leadersAfter (List.forall_mem_nil _) hitems hv

/-- What the first members of the classes are equal to is what all of them are equal to. -/
theorem anySame_leaders {items : List Value} (hitems : ∀ w ∈ items, w.Exact) {needle : Value}
    (hneedle : needle.Exact) : anySame (leaders items) needle = anySame items needle := by
  rw [Bool.eq_iff_iff, anySame_iff, anySame_iff]
  constructor
  · rintro ⟨w, hw, hsame⟩
    exact ⟨w, (leaders_sublist items).mem hw, hsame⟩
  · rintro ⟨w, hw, hsame⟩
    have hmem : w ∈ items.filter needle.same :=
      List.mem_filter.mpr ⟨hw, same_symm (hitems w hw) hneedle hsame⟩
    -- The first item that equals the needle is the leader of its class.
    obtain ⟨first, rest, hfilter⟩ := List.exists_cons_of_ne_nil (List.ne_nil_of_mem hmem)
    have hfirst : first ∈ (leaders items).filter needle.same := by
      rw [filter_leaders hitems hneedle, hfilter]
      exact List.mem_cons_self
    obtain ⟨hkept, hclass⟩ := List.mem_filter.mp hfirst
    have hfirst := hitems first ((leaders_sublist items).mem hkept)
    exact ⟨first, hkept, same_symm hneedle hfirst hclass⟩

/-- An array contains what is equal to an item, and never nil. -/
theorem contains_array (items : List Value) (needle : Value) :
    (array items).contains needle = (!needle.isNil && anySame items needle) := by
  cases needle <;> simp [contains, isNil]

end Value

/-! ## What a filter keeps -/

namespace Filter

open Value

/-- The members of a flattened list are exact. -/
theorem exact_of_mem_flattenOnto {v : Value} (hv : v.Exact) {w : Value}
    (h : w ∈ flattenOnto v []) : w.Exact := by
  -- Only arrays are flattened, so the other cases are the value itself.
  induction v using nested_induction with
  | array items ih =>
    replace h : w ∈ flattened items := h
    induction items with
    | nil => cases h
    | cons v vs ihs =>
      obtain ⟨hv, hvs⟩ := List.forall_mem_cons.mp (exact_array_iff.mp hv)
      obtain ⟨ihv, ihvs⟩ := List.forall_mem_cons.mp ih
      rw [flattened_cons, List.mem_append] at h
      rcases h with h | h
      · exact ihv hv h
      · exact ihs ihvs (exact_array_iff.mpr hvs) h
  | object entries _ => exact List.mem_singleton.mp h ▸ hv
  | atom v hatom =>
    cases v with
    | array => cases hatom
    | _ => exact List.mem_singleton.mp h ▸ hv

/-- What is told apart by its own value is kept if no item before it is equal to it. It is enough to
look among those that were kept: an item that was dropped is equal to one of them. -/
theorem distinctFrom_eq {seen before items : List Value} (hseen : ∀ v ∈ seen, v.Exact)
    (hitems : ∀ v ∈ items, v.Exact)
    (hsame : ∀ v : Value, v.Exact → anySame seen v = anySame before v) :
    distinctFrom .ok seen items = .ok (leadersAfter before items) := by
  induction items generalizing seen before with
  | nil => rfl
  | cons item items ih =>
    obtain ⟨hitem, hitems⟩ := List.forall_mem_cons.mp hitems
    rw [leadersAfter_cons, ← hsame item hitem]
    by_cases hold : anySame seen item = true
    · have hstep : distinctFrom .ok seen (item :: items) = distinctFrom .ok seen items := by
        simp [distinctFrom, bind, Except.bind, hold]
      -- An item that was seen adds nothing, by transitivity.
      have hsame' : ∀ v : Value, v.Exact → anySame seen v = anySame (before ++ [item]) v := by
        intro v hv
        rw [anySame_concat, ← hsame v hv, eq_comm, Bool.or_eq_left_iff_imp]
        intro hiv
        obtain ⟨w, hw, hwi⟩ := anySame_iff.mp hold
        exact anySame_iff.mpr ⟨w, hw, same_trans (hseen w hw) hitem hv hwi hiv⟩
      rw [hstep, ih hseen hitems hsame', if_pos hold]
    · have hseen' : ∀ v ∈ seen ++ [item], v.Exact := by
        rw [List.forall_mem_append]
        exact ⟨hseen, by simpa using hitem⟩
      have hsame' : ∀ v : Value, v.Exact →
          anySame (seen ++ [item]) v = anySame (before ++ [item]) v := by
        intro v hv
        rw [anySame_concat, anySame_concat, hsame v hv]
      have hrest := ih hseen' hitems hsame'
      rw [if_neg hold]
      simp [distinctFrom, bind, Except.bind, hold, hrest, pure, Except.pure]

/-- Of a list the first members of the classes are kept, in order. -/
theorem uniq_of_exact (view : View) {items : List Value} (h : (Value.array items).Exact) :
    uniq.apply view (.array items) {} = .ok (.array (leaders (flattened items))) := by
  have hflat : ∀ v ∈ flattened items, v.Exact := fun v hv => exact_of_mem_flattenOnto h hv
  have hkept : distinctFrom .ok [] (flattened items) = .ok (leaders (flattened items)) :=
    distinctFrom_eq (List.forall_mem_nil _) hflat fun _ _ => rfl
  have hrun : uniq.apply view (.array items) {}
      = (.array ·) <$> distinctFrom .ok [] (flattened items) := rfl
  rw [hrun, hkept]
  rfl

end Filter

/-- Equality is an equivalence on the values without a number that has a fraction part, and objects
are equal exactly if they bind the same names to equal values. So of every list of such values
`uniq` keeps the first member of each class and nothing else, and what the flattened list contains
it contains after that as well. -/
theorem Value.exact_equality :
    (Equivalence fun v w : { v : Value // v.Exact } => v.1.same w.1 = true) ∧
      (∀ es fs : Object, (Value.object es).Exact → (Value.object fs).Exact →
        ((Value.object es).same (.object fs) = true
          ↔ ∀ name, Option.Rel (fun v w => v.same w = true) (es.get? name) (fs.get? name))) ∧
      ∀ (view : View) (items : List Value), (Value.array items).Exact →
        ∃ kept, Filter.uniq.apply view (.array items) {} = .ok (.array kept) ∧
          kept = leaders (Filter.flattened items) ∧
          (∀ v : Value, v.Exact →
            kept.filter v.same = ((Filter.flattened items).filter v.same).take 1) ∧
          ∀ needle : Value, needle.Exact →
            (Value.array kept).contains needle
              = (Value.array (Filter.flattened items)).contains needle := by
  refine ⟨⟨fun v => same_refl v.2, fun {v w} => same_symm v.2 w.2,
    fun {u v w} => same_trans u.2 v.2 w.2⟩, fun es fs hes hfs => ?_, fun view items h => ?_⟩
  · exact same_object_iff hes.nodup_keys hfs.nodup_keys
  · have hflat : ∀ v ∈ Filter.flattened items, v.Exact :=
      fun v hv => Filter.exact_of_mem_flattenOnto h hv
    refine ⟨_, Filter.uniq_of_exact view h, rfl, fun v hv => filter_leaders hflat hv,
      fun needle hneedle => ?_⟩
    rw [contains_array, contains_array, anySame_leaders hflat hneedle]

/-- Two objects that bind the same names in another order, one of them within a list. -/
theorem Value.exact_equality_reordered :
    let one : Value := .object [("a", .int 1), ("b", .array [.int 2])]
    let other : Value := .object [("b", .array [.int 2]), ("a", .int 1)]
    one.same other = true ∧
      ∃ kept, Filter.uniq.apply {} (.array [one, .array [other, .nil]]) {} = .ok (.array kept) ∧
        kept = [one, .nil] ∧ (Value.array kept).contains other = true := by
  intro one other
  have hone : one.Exact := by decide
  have hother : other.Exact := by decide
  obtain ⟨_, hobjects, huniq⟩ := exact_equality
  refine ⟨(hobjects _ _ hone hother).mpr fun name => ?_, ?_⟩
  · by_cases ha : name = "a"
    · subst ha
      exact .some (by decide)
    · by_cases hb : name = "b"
      · subst hb
        exact .some (by decide)
      · simp only [Assoc.get?_cons, ha, hb, if_false, Assoc.get?_nil]
        exact .none
  · obtain ⟨kept, hkept, hleaders, -, hcontains⟩ :=
      huniq {} [one, .array [other, .nil]] (by decide)
    refine ⟨kept, hkept, hleaders.trans (by rfl), (hcontains other hother).trans (by decide)⟩

end Stencil
