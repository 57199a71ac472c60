import Stencil.Evaluation
import Stencil.Proofs.Outcome
import Stencil.Render.Slice

/-!
# What evaluation keeps

Evaluation makes no values by itself but texts, numbers and pairs of a key and a value; all else
that it gives it found within what it was given. So what holds of all data, and is handed down from
values to what is within them, holds of all that an expression can give.

## Key definitions

- `Hereditary V E`: `V` is handed down, and what fails on the way satisfies `E`
- `View.All`: all variables that can be seen satisfy `V`, and all that the host answers

## Key results

- `Hereditary.get_of`, `Hereditary.get_all?`: the members of slices
- `Hereditary.lookup`: one step of a path
- `Hereditary.evaluate`, `Hereditary.condition`: whole evaluations
-/

namespace Stencil

/-- The value holds no values, and is no drop. -/
def Value.isAtom : Value → Bool
  | .array _ | .object _ | .drop _ => false
  | .nil | .bool _ | .int _ | .float _ | .str _ | .range .. => true

/-- The value, if there is one, satisfies `V`; an error satisfies `E`. -/
abbrev MeetsIfAny (V : Value → Prop) (E : Error → Prop) : Except Error (Option Value) → Prop :=
  Meets (fun found => ∀ v, found = some v → V v) E

/-- All variables that can be seen satisfy `V`, and so does what the code of the host answers in
this view; where it fails its errors satisfy `E`. -/
structure View.All (V : Value → Prop) (E : Error → Prop) (view : View) : Prop where
  find : ∀ name v, view.find? name = some v → V v
  answers : ∀ id name, MeetsIfAny V E (view.answers id name view.toSurroundings)

/-- What holds of a value holds of what is within it, of what a drop stands for and of what it
answers. Errors that drops raise, and the engine's own, satisfy `E`. -/
structure Hereditary (V : Value → Prop) (E : Error → Prop) : Prop where
  atom {v : Value} : v.isAtom = true → V v
  item {items : List Value} : V (.array items) → ∀ v ∈ items, V v
  entry {entries : List (String × Value)} : V (.object entries) → ∀ e ∈ entries, V e.2
  pair {e : String × Value} : V e.2 → V (.ofEntry e)
  liquid {d : Drop} {v : Value} : V (.drop d) → d.toLiquid? = some v → V v
  dropItem {d : Drop} {items : List Value} :
    V (.drop d) → d.items? = some items → ∀ v ∈ items, V v
  member {d : Drop} {view : View} :
    V (.drop d) → view.All V E → ∀ name, MeetsIfAny V E (d.member? view name)
  raised {e : Error} : e.kind ≠ .memory → e.kind ≠ .foreign → e.kind ≠ .crash →
    e.line = none → e.template = none → E e

namespace Hereditary

variable {V : Value → Prop} {E : Error → Prop}

/-! ## Values within values -/

section

variable (h : Hereditary V E)
include h

/-- Nil is an atom, so a missing value satisfies `V` too. -/
theorem getD {o : Option Value} (ho : ∀ v, o = some v → V v) : V (o.getD .nil) := by
  cases o with
  | none => exact h.atom rfl
  | some v => exact ho v rfl

/-- What a value turns into satisfies `V`. -/
theorem liquid_value {v : Value} (hv : V v) : V v.liquid := by
  cases v with
  | drop d =>
    show V (d.toLiquid?.getD (.drop d))
    cases hl : d.toLiquid? with
    | none => exact hv
    | some w => exact h.liquid hv hl
  | _ => exact hv

/-- So do the items of a drop. -/
theorem dropItems {d : Drop} (hd : V (.drop d)) : ∀ v ∈ d.items?.getD [], V v := by
  cases hi : d.items? with
  | none => exact List.forall_mem_nil _
  | some items => exact h.dropItem hd hi

theorem pairs {entries : List (String × Value)} (he : ∀ e ∈ entries, V e.2) :
    ∀ v ∈ entries.map Value.ofEntry, V v := by
  intro v hv
  obtain ⟨e, hmem, rfl⟩ := List.mem_map.mp hv
  exact h.pair (he e hmem)

/-! ## Slices -/

theorem get_items {items : List Value} (hitems : ∀ v ∈ items, V v) (index : Nat) :
    V ((Slice.items items.toArray).get index) := by
  refine h.getD fun v hv => ?_
  rw [List.getElem?_toArray] at hv
  exact hitems v (List.mem_of_getElem? hv)

omit h in
private theorem all_cut {items : List Value} (hitems : ∀ v ∈ items, V v) (start : Nat)
    (stop : Option Nat) : ∀ v ∈ Slice.cut start stop items, V v :=
  fun v hv => hitems v (List.mem_of_mem_take (List.mem_of_mem_drop hv))

theorem get_of (start : Nat) (stop : Option Nat) {v : Value} (index : Nat) (hv : V v) :
    V ((Slice.of start stop v).get index) := by
  have hstr (text : String) : ∀ w ∈ [Value.str text], V w :=
    List.forall_mem_singleton.mpr (h.atom rfl)
  unfold Slice.of
  split
  · exact h.atom rfl
  · exact h.get_items (all_cut (h.item hv) start stop) index
  · exact h.get_items (all_cut (h.pairs (h.entry hv)) start stop) index
  · exact h.get_items (all_cut (h.dropItems hv) start stop) index
  · exact h.get_items (List.forall_mem_nil _) index
  · exact h.get_items (all_cut (hstr _) start stop) index
  · exact h.get_items (List.forall_mem_nil _) index

theorem get_all? {v : Value} {slice : Slice} (index : Nat) (hv : V v)
    (hall : Slice.all? v = some slice) : V (slice.get index) := by
  unfold Slice.all? at hall
  split at hall
  · cases hall
    exact h.get_items (h.item hv) index
  · cases hall
    exact h.get_items (h.pairs (h.entry hv)) index
  · cases hall
    exact h.atom rfl
  · obtain ⟨items, hi, rfl⟩ := Option.map_eq_some_iff.mp hall
    exact h.get_items (h.dropItem hv hi) index
  · exact nomatch hall

end

/-! ## Lookup -/

/-- The members of a collection satisfy `V`. -/
private def Members (V : Value → Prop) : Collection → Prop
  | .items xs => ∀ v ∈ xs, V v
  | .entries m => ∀ e ∈ m, V e.2
  | .range .. | .characters _ => True

section

variable (h : Hereditary V E) {c : Collection}
include h

/-- What is at an index is an item, a pair, a number or a character. -/
private theorem get? (hc : Members V c) {index : Nat} {v : Value} (hv : c.get? index = some v) :
    V v := by
  cases c with
  | items xs => exact hc v (List.mem_of_getElem? hv)
  -- An entry is given as a pair of its name and its value.
  | entries m =>
    obtain ⟨e, he, rfl⟩ := Option.map_eq_some_iff.mp hv
    exact h.pair (hc e (List.mem_of_getElem? he))
  | range first last =>
    unfold Collection.get? at hv
    dsimp only at hv
    split at hv
    · obtain ⟨n, -, rfl⟩ := Option.map_eq_some_iff.mp hv
      exact h.atom rfl
    · exact nomatch hv
  | characters text =>
    obtain ⟨ch, -, rfl⟩ := Option.map_eq_some_iff.mp hv
    exact h.atom rfl

/-- So is what is at an index from the end. -/
private theorem at? (hc : Members V c) {index : Int64} {v : Value} (hv : c.at? index = some v) :
    V v := by
  have hplace : ∃ place : Int,
      c.at? index = if place < 0 then none else c.get? place.toNat := ⟨_, rfl⟩
  obtain ⟨place, hplace⟩ := hplace
  rw [hplace] at hv
  split at hv
  · exact nomatch hv
  · exact h.get? hc hv

/-- What is counted or asked about a collection is an atom; its first and last are members. -/
private theorem accessor? (hc : Members V c) {name : String} {v : Value}
    (hv : c.accessor? name = some v) : V v := by
  unfold Collection.accessor? at hv
  -- The size, the first and the last member, and whether there are none.
  split at hv
  · cases hv
    exact h.atom rfl
  · cases hv
    exact h.getD fun w hw => h.get? hc hw
  · cases hv
    unfold Collection.last
    split
    · exact h.atom rfl
    · exact h.getD fun w hw => h.get? hc hw
  · cases hv
    exact h.atom rfl
  · cases hv
    exact h.atom rfl
  · exact nomatch hv

/-- What is found under a key is an item, a value or what an accessor gives. -/
private theorem lookup? (hc : Members V c) {key : Value} {dotted : Bool} {v : Value}
    (hv : c.lookup? key dotted = some v) : V v := by
  have hmember {n : Option Int64} {w : Value}
      (hw : n.map (fun n => (c.at? n).getD .nil) = some w) : V w := by
    obtain ⟨index, -, rfl⟩ := Option.map_eq_some_iff.mp hw
    exact h.getD fun w hw => h.at? hc hw
  unfold Collection.lookup? at hv
  dsimp only at hv
  split at hv
  · rename_i w hw
    cases hv
    -- Texts have no members to look up.
    cases c with
    | characters text => exact nomatch hw
    | _ => exact hmember hw
  · split at hv
    · exact h.accessor? hc hv
    · exact nomatch hv
  · exact nomatch hv

end

section

variable (h : Hereditary V E) {view : View} (hview : view.All V E)
include h hview

/-- A step of a path leads to a value that satisfies `V`. -/
theorem lookup {v : Value} (hv : V v) (key : Value) (dotted : Bool) :
    MeetsIfAny V E (v.lookup view key dotted) := by
  cases v with
  | drop d =>
    refine .bind (h.member hv hview _) fun found hfound => ?_
    cases found with
    | some w => exact hfound
    | none =>
      -- The drop does not answer; what is left is to look among its items.
      dsimp only
      split
      · rename_i w hw
        obtain ⟨items, hi, hl⟩ := Option.bind_eq_some_iff.mp hw
        have hw := h.lookup? (c := .items items) (h.dropItem hv hi) hl
        exact fun v hv => Option.some.inj hv ▸ hw
      · split
        · have hraised (name owner : String) : E (.undefinedDropMethod name owner) := by
            unfold Error.undefinedDropMethod
            exact h.raised (by simp) (by simp) (by simp) rfl rfl
          exact hraised _ _
        · exact fun v hv => Option.some.inj hv ▸ h.atom rfl
  | object entries =>
    intro w hw
    unfold Object.lookup? at hw
    split at hw
    · rename_i w' hfound
      cases hw
      exact h.entry hv _ (Assoc.mem_of_get?_eq_some hfound)
    · split at hw
      · exact h.accessor? (c := .entries entries) (h.entry hv) hw
      · cases hw
  | array items => exact fun w hw => h.lookup? (c := .items items) (h.item hv) hw
  | range first last => exact fun w hw => h.lookup? (c := .range first last) trivial hw
  | str s => exact fun w hw => h.lookup? (c := .characters s) trivial hw
  | _ =>
    intro w hw
    cases hw

/-! ## Expressions -/

omit hview in
/-- What is no integer is refused by the evaluator itself. -/
theorem toInteger (v : Value) : Meets (fun _ => True) E v.toInteger := by
  have hinvalid : E .invalidInteger := h.raised nofun nofun nofun rfl rfl
  unfold Value.toInteger
  split
  · trivial
  · trivial
  · split
    · trivial
    · exact hinvalid
  · exact hinvalid

mutual

/-- The value of an expression satisfies `V`. -/
theorem evaluate : ∀ e : Expression, Meets V E (e.evaluate view)
  | .literal l => by
    rw [Expression.evaluate]
    exact h.atom (by cases l <;> rfl)
  | .empty => h.atom rfl
  | .blank => h.atom rfl
  | .lookup name segments => by
    rw [Expression.evaluate]
    refine .bind (evaluate name) fun v _ => ?_
    dsimp only
    split
    · rename_i w hw
      exact follow segments _ (h.liquid_value (hview.find _ w hw))
    · -- A variable that is not there is an error of the engine, or nil.
      split
      · exact h.raised nofun nofun nofun rfl rfl
      · exact follow segments _ (h.atom rfl)
  | .range first last => by
    rw [Expression.evaluate]
    refine .bind (evaluate first) fun v _ => ?_
    refine .bind (h.toInteger _) fun a _ => ?_
    refine .bind (evaluate last) fun w _ => ?_
    exact .bind (h.toInteger _) fun b _ => h.atom rfl
  | .path root segments => by
    rw [Expression.evaluate]
    refine .bind (evaluate root) fun v hv => ?_
    exact follow segments _ (h.liquid_value hv)

/-- A path leads from a value to values within it. -/
theorem follow : ∀ (segments : List Segment) (v : Value),
    V v → Meets V E (Expression.follow view segments v)
  | [], _, hv => hv
  | .mk key dotted :: segments, v, hv => by
    rw [Expression.follow]
    refine .bind (evaluate key) fun k _ => ?_
    refine .bind (h.lookup hview hv _ dotted) fun found hfound => ?_
    cases found with
    | some w => exact follow segments _ (h.liquid_value (hfound w rfl))
    | none =>
      dsimp only
      split
      · exact h.raised nofun nofun nofun rfl rfl
      · exact h.atom rfl

end

/-! ## Conditions -/

/-- An operand fails as the expression does. -/
private theorem operand (e : Expression) : Meets (fun _ => True) E (e.operand view) :=
  .map (h.evaluate hview e) fun _ _ => trivial

/-- A comparison for equality fails as its operands do. -/
private theorem equals (left right : Expression) :
    Meets (fun _ => True) E (left.equals view right) := by
  unfold Expression.equals
  split
  · exact .map (h.operand hview _) fun _ _ => trivial
  · exact .map (h.operand hview _) fun _ _ => trivial
  · exact .map (h.operand hview _) fun _ _ => trivial
  · exact .map (h.operand hview _) fun _ _ => trivial
  · refine .bind (h.operand hview left) fun v _ => ?_
    exact .bind (h.operand hview right) fun w _ => trivial

omit hview in
/-- One for order fails on values that have none. -/
private theorem ordered (holds : Ordering → Bool) (left right : Value) :
    Meets (fun _ => True) E (Value.ordered holds left right) := by
  unfold Value.ordered
  split
  · exact h.raised nofun nofun nofun rfl rfl
  · exact h.raised nofun nofun nofun rfl rfl
  · exact h.raised nofun nofun nofun rfl rfl
  · exact h.raised nofun nofun nofun rfl rfl
  · trivial

/-- Both operands are evaluated first. -/
private theorem compared (left right : Expression) (holds : Ordering → Bool) :
    Meets (fun _ => True) E (Operator.evaluate.compared view left right holds) := by
  refine .bind (h.operand hview left) fun v _ => ?_
  refine .bind (h.operand hview right) fun w _ => ?_
  exact h.ordered holds v w

/-- Every operator fails as its operands and its comparison do. -/
private theorem operator (op : Operator) (left right : Expression) :
    Meets (fun _ => True) E (op.evaluate view left right) := by
  cases op with
  | eq => exact h.equals hview left right
  | notEq => exact .map (h.equals hview left right) fun _ _ => trivial
  | contains =>
    refine .bind (h.operand hview left) fun v _ => ?_
    exact .bind (h.operand hview right) fun w _ => trivial
  | _ => exact h.compared hview left right _

/-- A condition fails with errors that satisfy `E` only. -/
theorem condition (c : Condition) : Meets (fun _ => True) E (c.evaluate view) := by
  induction c with
  | truthy e => exact .map (h.operand hview e) fun _ _ => trivial
  | compare left op right => exact h.operator hview op left right
  | and left right ihl ihr =>
    refine .bind ihl fun holds _ => ?_
    split
    · exact ihr
    · trivial
  | or left right ihl ihr =>
    refine .bind ihl fun holds _ => ?_
    split
    · trivial
    · exact ihr
  | always => trivial

end

end Hereditary

end Stencil
