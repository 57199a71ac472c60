/-! # Maps in insertion order

A map from names as the list of its entries, in the order in which the names were first bound.
Binding a name again keeps its place and replaces its value.

* `get?_put`: a binding is found under its own name and changes no other.
* `keys_put`: a new name comes last, and a name that is bound keeps its place.
* `nodup_keys_put`: a map that is built by `put` binds each name once.
* `get?_putAll`: of the entries that are bound from left to right the last one of a name counts. -/

namespace Stencil

/-- Names with their values, in the order of insertion. -/
abbrev Assoc (α : Type) := List (String × α)

namespace Assoc

variable {α : Type}

/-- The value bound to a name. -/
def get? (m : Assoc α) (name : String) : Option α :=
  List.lookup name m

/-- Whether the name is bound. -/
def binds (m : Assoc α) (name : String) : Bool :=
  (get? m name).isSome

/-- Binds a name, in its old place if it has one and else at the end. -/
def put : Assoc α → String → α → Assoc α
  | [], name, value => [(name, value)]
  | (k, v) :: m, name, value =>
    if k = name then (k, value) :: m else (k, v) :: put m name value

/-- Binds the entries of a list from left to right. -/
def putAll (m : Assoc α) (entries : List (String × α)) : Assoc α :=
  entries.foldl (fun m e => put m e.1 e.2) m

/-- The map that binds the entries of a list from left to right. -/
def ofList (entries : List (String × α)) : Assoc α :=
  putAll [] entries

/-- Removes a name and keeps the order of the others. -/
def remove (m : Assoc α) (name : String) : Assoc α :=
  m.filter (·.1 ≠ name)

/-- The bound names in order. -/
def keys (m : Assoc α) : List String :=
  m.map Prod.fst

/-- Nothing is found in an empty map. -/
@[simp] theorem get?_nil (name : String) : get? ([] : Assoc α) name = none := rfl

/-- The first entry is found under its name. -/
theorem get?_cons (k : String) (v : α) (m : Assoc α) (name : String) :
    get? ((k, v) :: m) name = if name = k then some v else get? m name := by
  by_cases h : name = k
  · simp [get?, h]
  · simp [get?, List.lookup_cons, h, beq_eq_false_iff_ne.mpr h]

/-- What is found is an entry. -/
theorem mem_of_get?_eq_some {m : Assoc α} {name : String} {v : α} (h : get? m name = some v) :
    (name, v) ∈ m := by
  induction m with
  | nil => exact nomatch h
  | cons e m ih =>
    obtain ⟨k, w⟩ := e
    rw [get?_cons] at h
    split at h
    · rename_i hk
      cases h
      rw [hk]
      exact List.mem_cons_self ..
    · exact List.mem_cons_of_mem _ (ih h)

/-- Where each name is bound once, every entry is found under its name. -/
theorem get?_of_mem {m : Assoc α} (hkeys : (keys m).Nodup) {entry : String × α}
    (h : entry ∈ m) : get? m entry.1 = some entry.2 := by
  induction m with
  | nil => exact nomatch h
  | cons e m ih =>
    obtain ⟨hnew, hkeys⟩ := List.nodup_cons.mp hkeys
    rw [get?_cons]
    rcases List.mem_cons.mp h with rfl | h
    · exact if_pos rfl
    · have hne : entry.1 ≠ e.1 := fun heq => hnew (heq ▸ List.mem_map_of_mem h)
      rw [if_neg hne]
      exact ih hkeys h

/-- A binding is found under its own name and changes no other. -/
theorem get?_put (m : Assoc α) (name : String) (value : α) (name' : String) :
    get? (put m name value) name' = if name' = name then some value else get? m name' := by
  induction m with
  | nil => simp [put, get?_cons]
  | cons e m ih =>
    obtain ⟨k, v⟩ := e
    by_cases h : k = name
    · subst h
      by_cases h' : name' = k <;> simp [put, get?_cons, h']
    · by_cases h' : name' = k
      · subst h'; simp [put, get?_cons, h]
      · simp [put, get?_cons, h, h', ih]

/-- What holds of all values still does after binding one of which it holds. -/
theorem forall_mem_put {P : α → Prop} {m : Assoc α} (h : ∀ e ∈ m, P e.2) (name : String)
    {value : α} (hv : P value) : ∀ e ∈ put m name value, P e.2 := by
  induction m with
  | nil => exact List.forall_mem_singleton.mpr hv
  | cons e m ih =>
    obtain ⟨he, hm⟩ := List.forall_mem_cons.mp h
    unfold put
    split
    · exact List.forall_mem_cons.mpr ⟨hv, hm⟩
    · exact List.forall_mem_cons.mpr ⟨he, ih hm⟩

/-- The names are those under which something is found. -/
theorem mem_keys_iff (m : Assoc α) (name : String) :
    name ∈ keys m ↔ (get? m name).isSome = true := by
  induction m with
  | nil => simp [keys]
  | cons e m ih =>
    obtain ⟨k, v⟩ := e
    by_cases h : name = k
    · simp [keys, get?_cons, h]
    · simp only [keys, List.map_cons, List.mem_cons, h, false_or, get?_cons, if_false]
      exact ih

/-- A new name comes last, and a name that is bound keeps its place. -/
theorem keys_put (m : Assoc α) (name : String) (value : α) :
    keys (put m name value) = if name ∈ keys m then keys m else keys m ++ [name] := by
  induction m with
  | nil => simp [put, keys]
  | cons e m ih =>
    obtain ⟨k, v⟩ := e
    by_cases h : k = name
    · subst h; simp [put, keys]
    · have h' : name ≠ k := fun e => h e.symm
      simp only [keys] at ih
      by_cases hm : name ∈ m.map Prod.fst <;> simp [put, keys, h, h', hm, ih]

/-- A map that is built by `put` binds each name once. -/
theorem nodup_keys_put {m : Assoc α} (h : (keys m).Nodup) (name : String) (value : α) :
    (keys (put m name value)).Nodup := by
  rw [keys_put]
  split
  · exact h
  · rename_i hn
    refine List.nodup_append.mpr ⟨h, by simp, ?_⟩
    intro a ha b hb
    simp only [List.mem_singleton] at hb
    exact fun e => hn (hb ▸ e ▸ ha)

/-- What the first entries do not hold is looked for in the others. -/
theorem get?_append (m m' : Assoc α) (name : String) :
    get? (m ++ m') name = (get? m name).or (get? m' name) := by
  induction m with
  | nil => rfl
  | cons e m ih =>
    obtain ⟨k, v⟩ := e
    by_cases h : name = k <;> simp [get?_cons, h, ih]

/-- A map that binds each name once may be read from either end. -/
theorem get?_reverse {m : Assoc α} (h : (keys m).Nodup) (name : String) :
    get? m.reverse name = get? m name := by
  induction m with
  | nil => rfl
  | cons e m ih =>
    obtain ⟨k, v⟩ := e
    obtain ⟨hk, hm⟩ := List.nodup_cons.mp h
    rw [List.reverse_cons, get?_append, ih hm, get?_cons, get?_cons]
    by_cases hn : name = k
    · have hnone : get? m name = none := by
        rw [← Option.not_isSome_iff_eq_none, ← mem_keys_iff, hn]
        exact hk
      simp [hn ▸ hnone, hn]
    · simp [hn]

/-- One list of entries after the other. -/
theorem putAll_append (m : Assoc α) (entries entries' : List (String × α)) :
    putAll m (entries ++ entries') = putAll (putAll m entries) entries' :=
  List.foldl_append

/-- Of the entries that are bound from left to right the last one of a name counts. -/
theorem get?_putAll (m : Assoc α) (entries : List (String × α)) (name : String) :
    get? (putAll m entries) name = (get? entries.reverse name).or (get? m name) := by
  induction entries generalizing m with
  | nil => rfl
  | cons e entries ih =>
    have hrest : putAll m (e :: entries) = putAll (put m e.1 e.2) entries := rfl
    rw [hrest, ih, get?_put, List.reverse_cons, get?_append, get?_cons]
    by_cases h : name = e.1 <;> simp [h]

/-- Of several entries under a name the last one counts. -/
theorem get?_ofList (entries : List (String × α)) (name : String) :
    get? (ofList entries) name = get? entries.reverse name := by
  rw [ofList, get?_putAll, get?_nil, Option.or_none]

/-- Putting entries in leaves no name twice. -/
theorem nodup_keys_putAll {m : Assoc α} (h : (keys m).Nodup) (entries : List (String × α)) :
    (keys (putAll m entries)).Nodup := by
  induction entries generalizing m with
  | nil => exact h
  | cons e entries ih => exact ih (nodup_keys_put h e.1 e.2)

/-- A map that is made of entries has no name twice. -/
theorem nodup_keys_ofList (entries : List (String × α)) : (keys (ofList entries)).Nodup :=
  nodup_keys_putAll (m := []) List.nodup_nil entries

end Assoc

end Stencil
