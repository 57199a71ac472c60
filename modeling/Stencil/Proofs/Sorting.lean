import Mathlib.Data.String.Basic
import Stencil.Proofs.Accessors
import Stencil.Proofs.StableSort

/-!
# Sorting by keys

Integers are ordered with integers and texts with texts, nil comes last, and no other two keys have
an order. As long as no comparison fails, what it answers is transitive and every two keys next to
each other have an order in the end, so all of them do. So two keys without an order are met
wherever they stand.

The sort does not end there. It goes on as if the two were equal, and equality of that kind is not
transitive, so that answers may contradict each other and a long sort may break off.

Floating point numbers are left aside: one that is no number has no order with itself.

## Key definitions

- `Value.Clash`, `Value.Precedes`: two keys without an order, and those in ascending order
- `Filter.IsStableSort`: an arrangement in the order of the keys that keeps what is equal in place

## Key results

- `Filter.compares_keys`: the comparison of keys is one to sort by
- `Filter.meets_sortedByKey`: what sorting results in
- `Filter.sort_items`: what the filter answers to a list
-/

namespace Stencil

/-! ## Keys -/

namespace Value

/-- Two keys that have an order: two integers, or two texts. -/
inductive Comparable : Value → Value → Prop where
  | ints (a b : Int64) : Comparable (.int a) (.int b)
  | texts (a b : String) : Comparable (.str a) (.str b)

/-- Two keys without an order. Nil has one with every key. -/
def Clash (a b : Value) : Prop :=
  a ≠ .nil ∧ b ≠ .nil ∧ ¬ Comparable a b

/-- The first key comes strictly before the second one. -/
inductive Precedes : Value → Value → Prop where
  | ints {a b : Int64} : a < b → Precedes (.int a) (.int b)
  | texts {a b : String} : a < b → Precedes (.str a) (.str b)
  | last {a : Value} : a ≠ .nil → Precedes a .nil

/-- The value is no floating point number. -/
def IsExact (v : Value) : Prop :=
  ∀ x, v ≠ .float x

/-- The first key comes before the second one or is equal to it. -/
def NotAfter (a b : Value) : Prop :=
  Precedes a b ∨ a = b

variable {a b c : Value}

/-- Values of one kind are comparable with each other. -/
theorem Comparable.trans (h : Comparable a b) (h' : Comparable b c) : Comparable a c := by
  cases h <;> cases h' <;> constructor

theorem Comparable.symm (h : Comparable a b) : Comparable b a := by
  cases h <;> constructor

/-- What precedes is transitive. -/
theorem Precedes.trans (h : Precedes a b) (h' : Precedes b c) : Precedes a c := by
  cases h with
  | ints h =>
    cases h' with
    | ints h' => exact .ints (Int64.lt_trans h h')
    | last _ => exact .last nofun
  | texts h =>
    cases h' with
    | texts h' => exact .texts (String.lt_trans h h')
    | last _ => exact .last nofun
  | last _ =>
    cases h' with
    | last h' => exact absurd rfl h'

/-- So is what does not come after. -/
theorem NotAfter.trans (h : NotAfter a b) (h' : NotAfter b c) : NotAfter a c := by
  rcases h with h | rfl
  · rcases h' with h' | rfl
    · exact .inl (h.trans h')
    · exact .inl h
  · exact h'

/-- Nothing precedes itself. -/
theorem Precedes.irrefl (a : Value) : ¬ Precedes a a := by
  intro h
  cases h with
  | ints h => exact Int64.lt_irrefl h
  | texts h => exact String.lt_irrefl _ h
  | last h => exact h rfl

/-- What comes before a key other than nil has an order with it. -/
theorem Precedes.comparable (h : Precedes a b) (hb : b ≠ .nil) : Comparable a b := by
  cases h with
  | ints => exact .ints ..
  | texts => exact .texts ..
  | last => exact absurd rfl hb

/-- Only nil may stand behind nil. -/
theorem NotAfter.ne_nil (h : NotAfter a b) (hb : b ≠ .nil) : a ≠ .nil := by
  rcases h with h | rfl
  · intro ha
    subst ha
    exact nomatch h.comparable hb
  · exact hb

/-- Two keys clash in either order. -/
theorem Clash.symm (h : Clash a b) : Clash b a :=
  ⟨h.2.1, h.1, fun hcomparable => h.2.2 hcomparable.symm⟩

/-- A key that has an order with another one, and comes behind it, has an order with whatever is not
behind that. -/
theorem NotAfter.not_clash (h : NotAfter a b) (hbc : NotAfter b c) (hclash : ¬ Clash c b) :
    ¬ Clash c a := by
  rintro ⟨hc, ha, hcomparable⟩
  have hb : b ≠ .nil := hbc.ne_nil hc
  have hcb : Comparable c b := not_not.mp fun hnot => hclash ⟨hc, hb, hnot⟩
  rcases h with h | rfl
  · exact hcomparable (hcb.trans (h.comparable hb).symm)
  · exact hcomparable hcb

/-- An exact value that is a number is an integer. -/
theorem exists_int_of_asNumber? {n : Number} (ha : a.IsExact) (h : a.asNumber? = some n) :
    ∃ i, a = .int i := by
  cases a with
  | int i => exact ⟨i, rfl⟩
  | float x => exact absurd rfl (ha x)
  | _ => exact nomatch h

/-- Floating point numbers aside, keys have an order only if they are comparable. -/
theorem order?_eq_none (ha : a.IsExact) (hb : b.IsExact) (h : ¬ Comparable a b) :
    a.order? b = none := by
  unfold order?
  split
  · exact absurd (.ints ..) h
  · exact absurd (.texts ..) h
  · split
    · rename_i x y hx hy
      obtain ⟨i, rfl⟩ := exists_int_of_asNumber? ha hx
      obtain ⟨j, rfl⟩ := exists_int_of_asNumber? hb hy
      exact absurd (.ints ..) h
    · rfl

end Value

namespace Filter

open Value

/-! ## Comparing keys -/

/-- Of two values that are not nil the order decides. -/
theorem comesBefore_of_ne_nil {a b : Value} (ha : a ≠ .nil) (hb : b ≠ .nil) :
    comesBefore a b
      = match a.order? b with
        | some o => .ok (o == .lt)
        | none => .error (a.incomparable b) := by
  unfold comesBefore
  split
  · exact absurd rfl ha
  · exact absurd rfl hb
  · rfl

/-- In a total order a comparison says whether the first member is less. -/
private theorem of_compare {α : Type} [LT α] [DecidableLT α] [DecidableEq α]
    (htotal : ∀ {a b : α}, ¬ a < b → b < a ∨ b = a) (a b : α) :
    if compareOfLessAndEq a b == .lt then a < b else b < a ∨ b = a := by
  unfold compareOfLessAndEq
  split
  · assumption
  · rename_i hlt
    split <;> exact htotal hlt

/-- The order of integers. -/
private theorem of_compare_int (a b : Int64) :
    if compare a b == .lt then a < b else b < a ∨ b = a :=
  of_compare (fun h => Int64.le_iff_lt_or_eq.mp (Int64.not_lt.mp h)) a b

private theorem of_compare_str (a b : String) :
    if compare a b == .lt then a < b else b < a ∨ b = a :=
  of_compare (fun h => (not_lt.mp h).lt_or_eq) a b

/-- Either answer may be weakened. -/
private theorem ite_imp {before : Bool} {p q p' q' : Prop} (h : if before then p else q)
    (hp : p → p') (hq : q → q') : if before then p' else q' := by
  cases before with
  | true => exact hp h
  | false => exact hq h

/-- Two keys are compared if they have an order, and then the answer is that order. -/
theorem meets_comesBefore {a b : Value} (ha : a.IsExact) (hb : b.IsExact) :
    Meets (fun before => ¬ Clash a b ∧ if before then Precedes a b else NotAfter b a)
      (fun e => e.kind = .argument ∧ Clash a b) (comesBefore a b) := by
  -- Nil goes last, so it clashes with nothing; then both are of one kind, or they clash.
  by_cases hnil : a = .nil
  · subst hnil
    have hlast : NotAfter b .nil := by
      by_cases hb : b = .nil
      · exact .inr hb
      · exact .inl (.last hb)
    exact ⟨fun hclash => hclash.1 rfl, hlast⟩
  by_cases hnil' : b = .nil
  · subst hnil'
    have hbefore : comesBefore a .nil = .ok true := by
      cases a <;> first | rfl | exact absurd rfl hnil
    rw [hbefore]
    exact ⟨fun hclash => hclash.2.1 rfl, .last hnil⟩
  rw [comesBefore_of_ne_nil hnil hnil']
  by_cases hcomparable : Comparable a b
  · have hclash : ¬ Clash a b := fun hclash => hclash.2.2 hcomparable
    cases hcomparable with
    | ints i j =>
      exact ⟨hclash, ite_imp (of_compare_int i j) .ints fun h => h.imp .ints (congrArg Value.int)⟩
    | texts s t =>
      exact ⟨hclash, ite_imp (of_compare_str s t) .texts fun h => h.imp .texts (congrArg Value.str)⟩
  · rw [order?_eq_none ha hb hcomparable]
    exact ⟨rfl, hnil, hnil', hcomparable⟩

/-! ## Sorting -/

/-- The result has the entries in the ascending order of their keys, nil last, and those with equal
keys in the order in which they came. -/
structure IsStableSort (entries result : List (Value × Value)) : Prop where
  perm : result.Perm entries
  sorted : result.Pairwise fun a b => NotAfter a.1 b.1
  stable : ∀ p : Value × Value → Bool, (∀ a b, p a = true → p b = true → a.1 = b.1) →
    result.filter p = entries.filter p

/-- Two of the keys have no order. -/
def HasClash (keys : List Value) : Prop :=
  ∃ a b, [a, b].Sublist keys ∧ Clash a b

/-- Without a clash no two keys clash. -/
theorem not_hasClash_iff {keys : List Value} :
    ¬ HasClash keys ↔ keys.Pairwise fun a b => ¬ Clash a b := by
  rw [List.pairwise_iff_forall_sublist]
  exact ⟨fun h a b hsub hclash => h ⟨a, b, hsub, hclash⟩,
    fun h ⟨a, b, hsub, hclash⟩ => h hsub hclash⟩

/-- The entries may be compared, where two of them may only clash if two of the keys do. -/
private def Compared (keys : List Value) (a b : Value × Value) : Prop :=
  a.1.IsExact ∧ b.1.IsExact ∧ (Clash a.1 b.1 → HasClash keys)

/-- Any two of the entries may be compared. -/
private theorem pairwise_compared {entries : List (Value × Value)}
    (hexact : ∀ entry ∈ entries, entry.1.IsExact) :
    entries.Pairwise (Compared (entries.map Prod.fst)) := by
  refine List.pairwise_iff_forall_sublist.mpr fun {a b} hsub => ?_
  have hmem := hsub.subset
  exact ⟨hexact a (hmem List.mem_cons_self),
    hexact b (hmem (List.mem_cons_of_mem _ List.mem_cons_self)),
    fun hclash => ⟨a.1, b.1, hsub.map Prod.fst, hclash⟩⟩

/-- The comparison of keys answers with their order, as long as two keys have one. -/
private theorem compares_keys (keys : List Value) :
    Sorting.Compares (Compared keys) (fun e => e.kind = .argument ∧ HasClash keys)
      (fun a b => Precedes a.1 b.1) (fun a b => ¬ Clash a.1 b.1 ∧ NotAfter a.1 b.1)
      (fun a b => comesBefore a.1 b.1) where
  symm h := ⟨h.2.1, h.1, fun hclash => h.2.2 hclash.symm⟩
  -- The answer of one comparison,
  meets h := by
    refine (meets_comesBefore h.1 h.2.1).mono (fun before hbefore => ?_)
      fun e he => ⟨he.1, h.2.2 he.2⟩
    obtain ⟨hclash, hbefore⟩ := hbefore
    cases before with
    | true => exact hbefore
    | false => exact ⟨fun hclash' => hclash hclash'.symm, hbefore⟩
  -- and what several of them tell together.
  le_of_lt h := ⟨fun hclash => hclash.2.2 (h.comparable hclash.2.1), .inl h⟩
  trans hab hbc :=
    ⟨fun hclash => hab.2.not_clash hbc.2 (fun hclash' => hbc.1 hclash'.symm) hclash.symm,
      hab.2.trans hbc.2⟩
  lt_of_lt_of_le hab hbc := by
    rcases hbc.2 with h | h
    · exact hab.trans h
    · exact h ▸ hab
  lt_of_le_of_lt hab hbc := by
    rcases hab.2 with h | h
    · exact h.trans hbc
    · exact h ▸ hbc
  crash hab hba := by
    rcases hba.2 with h | h
    · exact absurd (hab.trans h) (Precedes.irrefl _)
    · exact absurd (h ▸ hab) (Precedes.irrefl _)
  self h hab := by
    refine ⟨h.2.1, h.2.1, fun hclash => absurd ?_ hclash.2.2⟩
    have hcomparable := hab.comparable hclash.1
    exact hcomparable.symm.trans hcomparable

/-- Entries whose keys have an order are sorted, and a comparison of two keys without one fails. -/
theorem meets_sort_comesBefore {entries : List (Value × Value)}
    (hexact : ∀ entry ∈ entries, entry.1.IsExact) :
    Meets (fun sorted => IsStableSort entries sorted ∧ ¬ HasClash (entries.map Prod.fst))
      (fun e => e.kind = .argument ∧ HasClash (entries.map Prod.fst))
      (Sorting.sort (fun a b => comesBefore a.1 b.1) entries) := by
  refine (Sorting.meets_sort (compares_keys _) (pairwise_compared hexact)).mono
    (fun sorted hsorted => ⟨⟨hsorted.perm, ?_, fun p hp => ?_⟩, ?_⟩) fun _ he => he
  · exact hsorted.sorted.imp fun h => h.2
  · exact hsorted.keeps p fun a b ha hb hlt => Precedes.irrefl _ (hp a b ha hb ▸ hlt)
  · rw [not_hasClash_iff, List.pairwise_map,
      ← hsorted.perm.pairwise_iff fun h hclash => h hclash.symm]
    exact hsorted.sorted.imp fun h => h.1

/-- Entries whose keys have an order are sorted. Two keys without one are an error of an argument,
but if there are more than twenty entries sorting may break off instead. -/
theorem meets_sortedByKey {entries : List (Value × Value)}
    (hexact : ∀ entry ∈ entries, entry.1.IsExact) :
    Meets (fun sorted => IsStableSort entries sorted ∧ ¬ HasClash (entries.map Prod.fst))
      (fun e => (e.kind = .argument ∨ e = .crash ∧ 20 < entries.length)
        ∧ HasClash (entries.map Prod.fst))
      (sortedByKey entries) := by
  have hstrict := meets_sort_comesBefore hexact
  unfold sortedByKey
  split
  · rename_i sorted heq
    rwa [heq] at hstrict
  · rename_i e heq
    rw [heq] at hstrict
    -- The comparison that goes on never fails, so only breaking off is left.
    have hlenient : Meets (fun _ => True) (fun e => e = .crash ∧ 20 < entries.length)
        (Sorting.sort (fun a b => guessedBefore a.1 b.1) entries) :=
      (Sorting.perm_of_sort (fun a _ b _ => meets_guessedBefore a.1 b.1) fun hlong =>
        ⟨rfl, hlong⟩).mono (fun _ _ => trivial) fun _ he => he
    exact (hlenient.mono (fun _ h => h) fun _ he => ⟨.inr he, hstrict.2⟩).bind
      fun _ _ => ⟨.inl hstrict.1, hstrict.2⟩

/-! ## The filter -/

/-- The items of a list with their keys in front of them. -/
theorem mapM_keyed {key : Value → Except Error Value} {items keys : List Value}
    (h : items.mapM key = .ok keys) :
    keys.length = items.length
      ∧ items.mapM (fun item => do return (← key item, item)) = .ok (keys.zip items) := by
  induction items generalizing keys with
  | nil => cases h; exact ⟨rfl, rfl⟩
  | cons item items ih =>
    rw [List.mapM_cons] at h ⊢
    cases hkey : key item with
    | error e => rw [hkey] at h; exact nomatch h
    | ok k =>
      cases hrest : items.mapM key with
      | error e => rw [hkey, hrest] at h; exact nomatch h
      | ok ks =>
        rw [hkey, hrest] at h
        cases h
        rw [(ih hrest).2]
        exact ⟨congrArg Nat.succ (ih hrest).1, rfl⟩

/-- With the keys at hand, the filter only sorts. -/
theorem apply_sort (view : View) (items : List Value) {keys : List Value} {args : Arguments}
    (hargs : args.positional.length ≤ 1)
    (hkeys : (flattenAllOnto items []).mapM (keyOf view args) = .ok keys) :
    sort.apply view (.array items) args
      = (sortedByKey (keys.zip (flattenAllOnto items []))).map
          fun sorted => .array (sorted.map Prod.snd) := by
  calc sort.apply view (.array items) args
    _ = (flattenAllOnto items []).mapM (fun item => do return (← keyOf view args item, item))
        >>= fun entries => sortedByKey entries
        >>= fun sorted => .ok (.array (sorted.map Prod.snd)) := if_pos ⟨Nat.zero_le _, hargs⟩
    _ = sortedByKey (keys.zip (flattenAllOnto items []))
        >>= fun sorted => .ok (.array (sorted.map Prod.snd)) := by rw [(mapM_keyed hkeys).2]; rfl
    _ = _ := by cases sortedByKey (keys.zip (flattenAllOnto items [])) <;> rfl

/-- A list is sorted by its items or a property of them. Without two keys that have no order, the
flattened items are in the ascending order of their keys, those without a key last and those with
equal keys as they were. Otherwise there is an error: that of an argument, unless more than twenty
items make the sort break off. -/
theorem sort_items (view : View) (items : List Value) {keys : List Value} (args : Arguments)
    (hargs : args.positional.length ≤ 1)
    (hkeys : (flattenAllOnto items []).mapM (keyOf view args) = .ok keys)
    (hexact : ∀ key ∈ keys, key.IsExact) :
    (HasClash keys → ∃ e, sort.apply view (.array items) args = .error e
        ∧ (e.kind = .argument ∨ e = .crash ∧ 20 < (flattenAllOnto items []).length))
      ∧ (¬ HasClash keys → ∃ sorted : List (Value × Value),
        sort.apply view (.array items) args = .ok (.array (sorted.map Prod.snd))
          ∧ (sorted.map Prod.snd).Perm (flattenAllOnto items [])
          ∧ IsStableSort (keys.zip (flattenAllOnto items [])) sorted) := by
  have hlength := (mapM_keyed hkeys).1
  have hmeets := @meets_sortedByKey (keys.zip (flattenAllOnto items []))
    fun entry hentry => hexact entry.1 (List.of_mem_zip hentry).1
  rw [List.map_fst_zip hlength.le, List.length_zip, hlength, Nat.min_self] at hmeets
  rw [apply_sort view items hargs hkeys]
  -- What the keys are sorted to decides about the items that belong to them.
  cases hsorted : sortedByKey (keys.zip (flattenAllOnto items [])) with
  | error e =>
    rw [hsorted] at hmeets
    exact ⟨fun _ => ⟨e, rfl, hmeets.1⟩, fun hclash => absurd hmeets.2 hclash⟩
  | ok sorted =>
    rw [hsorted] at hmeets
    refine ⟨fun hclash => absurd hclash hmeets.2, fun _ => ⟨sorted, rfl, ?_, hmeets.1⟩⟩
    have hperm := hmeets.1.perm.map Prod.snd
    rwa [List.map_snd_zip hlength.ge] at hperm

/-- Of the flattened items one has no `n`, and two have the same one. -/
theorem sort_items_by_name :
    let item (key : Value) (text : String) : Value := .object [("n", key), ("t", .str text)]
    let items := [item (.int 2) "a", .array [item .nil "b", item (.int 1) "c"], item (.int 2) "d"]
    let args : Arguments := { positional := [.str "n"] }
    let keys : List Value := [.int 2, .nil, .int 1, .int 2]
    args.positional.length ≤ 1
      ∧ (flattenAllOnto items []).mapM (keyOf {} args) = .ok keys
      ∧ (∀ key ∈ keys, key.IsExact)
      ∧ ¬ HasClash keys
      ∧ ∃ sorted : List (Value × Value),
        sort.apply {} (.array items) args = .ok (.array (sorted.map Prod.snd))
          ∧ sorted.map Prod.snd
            = [item (.int 1) "c", item (.int 2) "a", item (.int 2) "d", item .nil "b"]
          ∧ IsStableSort (keys.zip (flattenAllOnto items [])) sorted := by
  intro item items args keys
  have hargs : args.positional.length ≤ 1 := by decide
  have hkeys : (flattenAllOnto items []).mapM (keyOf {} args) = .ok keys := by rfl
  have hexact : ∀ key ∈ keys, key.IsExact := by simp [keys, IsExact]
  -- Neither `nil` nor equal numbers clash.
  have hclash : ¬ HasClash keys := by
    rw [not_hasClash_iff]
    simp [keys, Clash, Comparable.ints]
  obtain ⟨sorted, hsort, -, hstable⟩ := (sort_items {} items args hargs hkeys hexact).2 hclash
  refine ⟨hargs, hkeys, hexact, hclash, sorted, hsort, ?_, hstable⟩
  have hresult : sort.apply {} (.array items) args = .ok (.array
    [item (.int 1) "c", item (.int 2) "a", item (.int 2) "d", item .nil "b"]) := by rfl
  rw [hsort] at hresult
  exact Value.array.inj (Except.ok.inj hresult)

/-- The text has no order with the numbers around it, and so counts as equal to all of them. The two
halves of the list are sorted, and when they are merged from both ends these do not meet. -/
theorem not_sort_items_argument :
    let items : List Value := [.int 6, .int 5, .int 5, .int 5, .str "a"]
      ++ List.replicate 6 (.int 1) ++ List.replicate 11 (.int 3)
    (flattenAllOnto items []).mapM (keyOf {} {}) = .ok items
      ∧ (∀ key ∈ items, key.IsExact)
      ∧ HasClash items
      ∧ ¬ ∃ e, sort.apply {} (.array items) {} = .error e ∧ e.kind = .argument := by
  intro items
  have hcrash : sort.apply {} (.array items) {} = .error .crash := by rfl
  refine ⟨by rfl, by simp [items, IsExact], ⟨.int 6, .str "a", ?_, nofun, nofun, nofun⟩, ?_⟩
  · -- 6 stands before the text, and no order is said of the two.
    exact .cons_cons _ (.cons _ (.cons _ (.cons _ (.cons_cons _ (List.nil_sublist _)))))
  · rintro ⟨e, he, hkind⟩
    rw [hcrash] at he
    cases he
    exact nomatch hkind

end Filter

end Stencil
