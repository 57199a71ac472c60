import Stencil.Proofs.HereditaryFilters
import Stencil.Proofs.Run
import Stencil.Proofs.Slices

/-!
# What is in reach

A value has parts: itself, what it holds or binds, and what a drop stands for, holds and answers, at
any depth. What can be got hold of in a state are the parts of what is bound there. Evaluation makes
no parts of its own but texts, numbers, lists and pairs, so what holds of all others that are in
reach holds of all that an expression can give.

## Key definitions

- `Value.parts`: a value and all that is within it
- `View.reach`, `RenderState.reach`: what can be got hold of
- `Answers.MakeNoLoops`, `Filter.MakesNoLoops`: objects and filters that describe no loop but those
  that they were given

## Key results

- `Value.hereditary_throughout`: what holds of all parts of a value is handed down
- `Filter.standard_makesNoLoops`: the standard filters
-/

namespace Stencil

/-! ## The parts of a value -/

mutual

/-- The value, and all that is within it. -/
def Value.parts : Value → List Value
  | .array items => .array items :: Value.partsOfItems items
  | .object entries => .object entries :: Value.partsOfEntries entries
  | .drop d => .drop d :: d.parts
  | .nil => [.nil]
  | .bool b => [.bool b]
  | .int n => [.int n]
  | .float x => [.float x]
  | .str s => [.str s]
  | .range first last => [.range first last]

def Value.partsOfItems : List Value → List Value
  | [] => []
  | v :: vs => v.parts ++ Value.partsOfItems vs

def Value.partsOfEntries : List (String × Value) → List Value
  | [] => []
  | (_, v) :: es => v.parts ++ Value.partsOfEntries es

def Value.partsIfAny : Option Value → List Value
  | none => []
  | some v => v.parts

def Value.partsOfItemsIfAny : Option (List Value) → List Value
  | none => []
  | some items => Value.partsOfItems items

/-- What a drop stands for, what it holds and what it answers. -/
def Drop.parts : Drop → List Value
  | .host _ accessors missing toLiquid scalar items _ =>
    Reply.partsOfAll accessors ++ Reply.partsOfAll missing ++ Value.partsIfAny toLiquid
      ++ Value.partsIfAny scalar ++ Value.partsOfItemsIfAny items
  | .loop _ _ _ _ parent => parent.parts

def Reply.parts : Reply → List Value
  | .value v => v.parts
  | .raise .. | .variable _ => []

def Reply.partsOfAll : List (String × Reply) → List Value
  | [] => []
  | (_, reply) :: replies => reply.parts ++ Reply.partsOfAll replies

end

namespace Value

/-- All parts of the value satisfy `p`. -/
def Throughout (p : Value → Prop) (v : Value) : Prop :=
  ∀ w ∈ v.parts, p w

variable {p : Value → Prop}

/-- A value is a part of itself. -/
theorem mem_parts_self (v : Value) : v ∈ v.parts := by
  cases v <;> simp [parts]

/-- What holds throughout holds of the value. -/
theorem Throughout.self {v : Value} (h : v.Throughout p) : p v :=
  h v v.mem_parts_self

/-- An atom has no other parts. -/
theorem throughout_atom {v : Value} (hv : v.isAtom = true) (h : p v) : v.Throughout p := by
  cases v with
  | array | object | drop => exact nomatch hv
  | _ => exact List.forall_mem_singleton.mpr h

/-- The parts of items are those of each of them. -/
theorem mem_partsOfItems {items : List Value} {w : Value} :
    w ∈ partsOfItems items ↔ ∃ v ∈ items, w ∈ v.parts := by
  induction items with
  | nil => simp [partsOfItems]
  | cons v vs ih => simp [partsOfItems, ih]

/-- The parts of entries are those of their values. -/
theorem mem_partsOfEntries {entries : List (String × Value)} {w : Value} :
    w ∈ partsOfEntries entries ↔ ∃ e ∈ entries, w ∈ e.2.parts := by
  induction entries with
  | nil => simp [partsOfEntries]
  | cons e es ih => simp [partsOfEntries, ih]

/-- Throughout an array is the array and throughout its items. -/
theorem throughout_array_iff {items : List Value} :
    (array items).Throughout p ↔ p (array items) ∧ ∀ v ∈ items, v.Throughout p := by
  rw [Throughout, parts, List.forall_mem_cons]
  refine and_congr_right fun _ => ?_
  constructor
  · exact fun h v hv w hw => h w (mem_partsOfItems.mpr ⟨v, hv, hw⟩)
  · intro h w hw
    obtain ⟨v, hv, hw⟩ := mem_partsOfItems.mp hw
    exact h v hv w hw

/-- Throughout a map is the map and throughout its values. -/
theorem throughout_object_iff {entries : List (String × Value)} :
    (object entries).Throughout p ↔ p (object entries) ∧ ∀ e ∈ entries, e.2.Throughout p := by
  rw [Throughout, parts, List.forall_mem_cons]
  refine and_congr_right fun _ => ?_
  constructor
  · exact fun h e he w hw => h w (mem_partsOfEntries.mpr ⟨e, he, hw⟩)
  · intro h w hw
    obtain ⟨e, he, hw⟩ := mem_partsOfEntries.mp hw
    exact h e he w hw

/-- Throughout a loop is the loop and throughout the one around it. -/
theorem throughout_loop_iff {serial : Nat} {name : String} {length index : Nat} {parent : Value} :
    (drop (.loop serial name length index parent)).Throughout p
      ↔ p (drop (.loop serial name length index parent)) ∧ parent.Throughout p := by
  rw [Throughout, parts, List.forall_mem_cons, Drop.parts, Throughout]

end Value

/-! ## The parts of a drop -/

namespace Drop

variable {p : Value → Prop} {d : Drop}

/-- What a drop turns into is among its parts. -/
theorem mem_parts_of_toLiquid {v w : Value} (hv : d.toLiquid? = some v) (hw : w ∈ v.parts) :
    w ∈ d.parts := by
  cases d with
  | host id accessors missing toLiquid scalar items output =>
    have hv : toLiquid = some v := hv
    subst hv
    simp [parts, Value.partsIfAny, hw]
  | loop => exact nomatch hv

/-- So are its items. -/
theorem mem_parts_of_items {items : List Value} {v w : Value} (hi : d.items? = some items)
    (hv : v ∈ items) (hw : w ∈ v.parts) : w ∈ d.parts := by
  cases d with
  | host id accessors missing toLiquid scalar items' output =>
    have hi : items' = some items := hi
    subst hi
    have hmem : w ∈ Value.partsOfItems items := Value.mem_partsOfItems.mpr ⟨v, hv, hw⟩
    simp [parts, Value.partsOfItemsIfAny, hmem]
  | loop => exact nomatch hi

/-- The parts of the reply under a name are among those of all replies. -/
theorem mem_partsOfAll {replies : List (String × Reply)} {name : String} {reply : Reply}
    (h : replies.lookup name = some reply) {w : Value} (hw : w ∈ reply.parts) :
    w ∈ Reply.partsOfAll replies := by
  have hmem : (name, reply) ∈ replies := Assoc.mem_of_get?_eq_some h
  clear h
  induction replies with
  | nil => exact nomatch hmem
  | cons e replies ih =>
    rw [Reply.partsOfAll, List.mem_append]
    rcases List.mem_cons.mp hmem with rfl | hmem
    · exact .inl hw
    · exact .inr (ih hmem)

/-- What a drop answers is within it, or is a variable that can be seen, or is up to the code of the
host. -/
theorem member?_throughout {view : View} (hview : view.All (·.Throughout p) fun _ => True)
    (hatom : ∀ v : Value, v.isAtom = true → p v) (hd : (Value.drop d).Throughout p)
    (name : String) :
    MeetsIfAny (·.Throughout p) (fun _ => True) (d.member? view name) := by
  have hparts : ∀ w ∈ d.parts, p w := by
    rw [Value.Throughout, Value.parts, List.forall_mem_cons] at hd
    exact hd.2
  cases d with
  | host id accessors missing toLiquid scalar items output =>
    rw [parts] at hparts
    unfold member?
    dsimp only
    split
    · rename_i reply hl
      -- An accessor comes before an answer to what is missing.
      have hreply : ∀ w ∈ reply.parts, p w := by
        intro w hw
        refine hparts w ?_
        rcases Option.or_eq_some_iff.mp hl with hl | ⟨-, hl⟩
        · simp [mem_partsOfAll hl hw]
        · simp [mem_partsOfAll hl hw]
      have hresolved : Meets (·.Throughout p) (fun _ => True) (reply.resolve view) := by
        cases reply with
        | value v => exact hreply
        | raise e => trivial
        | «variable» name =>
          show ((view.find? name).getD .nil).Throughout p
          cases hv : view.find? name with
          | none => exact Value.throughout_atom rfl (hatom _ rfl)
          | some v => exact hview.find name v hv
      exact .map hresolved fun v hv w hw => Option.some.inj hw ▸ hv
    · exact hview.answers id name
  | loop serial loopName length index parent =>
    intro w hw
    unfold loopMember? at hw
    split at hw <;> cases hw <;>
      first | exact hparts | exact Value.throughout_atom rfl (hatom _ rfl)

end Drop

/-- What holds of texts and numbers and of pairs, and of all parts of a value, is handed down. -/
theorem Value.hereditary_throughout {p : Value → Prop} (hatom : ∀ v : Value, v.isAtom = true → p v)
    (hpair : ∀ e : String × Value, p (.ofEntry e)) :
    Hereditary (·.Throughout p) (fun _ => True) where
  atom hv := throughout_atom hv (hatom _ hv)
  item hv := (throughout_array_iff.mp hv).2
  entry hv := (throughout_object_iff.mp hv).2
  pair {e} he := throughout_array_iff.mpr ⟨hpair e, List.forall_mem_cons.mpr
    ⟨throughout_atom rfl (hatom _ rfl), List.forall_mem_singleton.mpr he⟩⟩
  -- What a drop answers without being asked for a member is a part of it.
  liquid {d v} hd hv w hw := by
    rw [Throughout, parts, List.forall_mem_cons] at hd
    exact hd.2 w (Drop.mem_parts_of_toLiquid hv hw)
  dropItem {d items} hd hi v hv w hw := by
    rw [Throughout, parts, List.forall_mem_cons] at hd
    exact hd.2 w (Drop.mem_parts_of_items hi hv hw)
  member hd hview name := Drop.member?_throughout hview hatom hd name
  raised _ _ _ _ _ := trivial

/-- And what holds of all lists is handed on to lists. -/
theorem Value.listed_throughout {p : Value → Prop} (hatom : ∀ v : Value, v.isAtom = true → p v)
    (hlist : ∀ items, p (.array items)) : Hereditary.Listed (·.Throughout p) (fun _ => True) where
  toHereditary := hereditary_throughout hatom fun _ => hlist _
  array {items} hitems := throughout_array_iff.mpr ⟨hlist items, hitems⟩
  overBudget := trivial

/-! ## What can be got hold of -/

/-- The values that are bound: in the scopes, in the environments and in the registers. -/
def View.bound (view : View) : List Value :=
  (view.scopes.inner.flatten ++ view.scopes.outer ++ view.environments.flatten
    ++ view.registers).map Prod.snd

/-- The values that are bound, with all that is within them. -/
def View.reach (view : View) : List Value :=
  view.bound.flatMap Value.parts

/-- All that can be got hold of in a state: what is bound, and the running loops. -/
def RenderState.reach (s : RenderState) : List Value :=
  (Settings.view {} s).reach ++ s.frame.loops.flatMap Value.parts

/-- What is reached is what is bound, and its parts. -/
theorem View.forall_mem_reach {view : View} {p : Value → Prop} :
    (∀ w ∈ view.reach, p w) ↔ ∀ v ∈ view.bound, v.Throughout p := by
  unfold View.reach
  rw [List.forall_mem_flatMap]
  exact Iff.rfl

/-- What is bound is bound in a scope, an environment or a register. -/
theorem View.mem_bound {view : View} {v : Value} :
    v ∈ view.bound ↔ (∃ scope ∈ view.scopes.inner, ∃ e ∈ scope, e.2 = v)
      ∨ (∃ e ∈ view.scopes.outer, e.2 = v)
      ∨ (∃ environment ∈ view.environments, ∃ e ∈ environment, e.2 = v)
      ∨ ∃ e ∈ view.registers, e.2 = v := by
  simp only [View.bound, List.mem_map, List.mem_append, List.mem_flatten]
  grind

/-- What can be got hold of satisfies `p` exactly if everything that is bound does throughout. -/
theorem RenderState.forall_mem_reach {s : RenderState} {p : Value → Prop} :
    (∀ w ∈ s.reach, p w) ↔ s.frame.Admits (·.Throughout p)
      ∧ Object.All (·.Throughout p) s.progress.registers.values := by
  unfold RenderState.reach
  rw [List.forall_mem_append, View.forall_mem_reach, List.forall_mem_flatMap]
  constructor
  · -- The inner scopes, the outer one, the environments and the registers.
    rintro ⟨hbound, hloops⟩
    have hof {v : Value} (hv : v ∈ (Settings.view {} s).bound) : v.Throughout p := hbound v hv
    refine ⟨⟨fun scope hscope e he => hof ?_, fun e he => hof ?_,
      fun environment henv e he => hof ?_, hloops⟩, fun e he => hof ?_⟩
    · exact View.mem_bound.mpr (.inl ⟨scope, hscope, e, he, rfl⟩)
    · exact View.mem_bound.mpr (.inr (.inl ⟨e, he, rfl⟩))
    · exact View.mem_bound.mpr (.inr (.inr (.inl ⟨environment, henv, e, he, rfl⟩)))
    · exact View.mem_bound.mpr (.inr (.inr (.inr ⟨e, he, rfl⟩)))
  · rintro ⟨hframe, hregisters⟩
    refine ⟨fun v hv => ?_, hframe.loops⟩
    rcases View.mem_bound.mp hv with ⟨scope, hscope, e, he, rfl⟩ | ⟨e, he, rfl⟩
      | ⟨environment, henv, e, he, rfl⟩ | ⟨e, he, rfl⟩
    · exact hframe.inner scope hscope e he
    · exact hframe.outer e he
    · exact hframe.environments environment henv e he
    · exact hregisters e he

/-! ## Loops and lists in reach -/

namespace Value

/-- The value describes a loop. -/
def isLoop : Value → Bool
  | drop (.loop ..) => true
  | _ => false

/-- A description of a loop tells of one of its iterations. -/
def InTurn : Value → Prop
  | drop (.loop _ _ length index _) => index < length
  | _ => True

/-- A collection has no more items than the largest integer says, as all that fit into memory. -/
def IsShort (v : Value) : Prop :=
  (v.loopItems.length : Int) ≤ Decimal.maxWhole

instance (v : Value) : Decidable v.IsShort :=
  inferInstanceAs (Decidable ((v.loopItems.length : Int) ≤ Decimal.maxWhole))

/-- What is no loop is in turn. -/
theorem inTurn_of_not_isLoop {v : Value} (h : v.isLoop = false) : v.InTurn := by
  cases v with
  | drop d =>
    cases d with
    | host => trivial
    | loop => exact nomatch h
  | _ => trivial

/-- An atom is short. -/
theorem isShort_of_isAtom {v : Value} (h : v.isAtom = true) : v.IsShort := by
  cases v with
  | array | object | drop => exact nomatch h
  | range first last =>
    rw [IsShort, length_loopItems_range]
    exact Collection.length_range_le first last
  | str text =>
    rw [IsShort, loopItems]
    split <;> simp [Decimal.maxWhole]
  | _ => simp [IsShort, loopItems, Decimal.maxWhole]

end Value

/-- A slice of a collection with few enough items stops at a template integer, if it starts at
one. -/
theorem Slice.add_length_le {start : Nat} (stop : Option Nat) {v : Value}
    (hstart : (start : Int) ≤ Decimal.maxWhole) (hv : v.IsShort) :
    ((start + (of start stop v).length : Nat) : Int) ≤ Decimal.maxWhole := by
  -- Either nothing is left, and the slice stops where it starts, or it stops at an item.
  have hitems : (v.loopItems.length : Int) ≤ Decimal.maxWhole := hv
  rw [length_of]
  omega

/-- That all lists fit into memory is handed down. -/
theorem Hereditary.short : Hereditary (·.Throughout Value.IsShort) (fun _ => True) :=
  Value.hereditary_throughout (fun _ => Value.isShort_of_isAtom) fun _ => by
    simp [Value.IsShort, Value.ofEntry, Value.loopItems, Decimal.maxWhole]

/-- That all loops are described in turn is handed down. -/
theorem Hereditary.inTurn : Hereditary (·.Throughout Value.InTurn) (fun _ => True) :=
  Value.hereditary_throughout
    (fun v hv => by
      cases v with
      | array | object | drop => exact nomatch hv
      | _ => trivial)
    fun _ => trivial

/-! ## The code of the host -/

/-- Wherever the code of the host's objects gives a description of a loop, that could be got hold of
where it was asked. -/
def Answers.MakeNoLoops (answers : Answers) : Prop :=
  ∀ (view : View) id name v, answers id name view.toSurroundings = .ok (some v) →
    ∀ w ∈ v.parts, w.isLoop = true → w ∈ view.reach

/-- The collections that the code of the host's objects gives have no more items than the largest
integer says, as all that fit into memory. -/
def Answers.AreShort (answers : Answers) : Prop :=
  ∀ id name s v, answers id name s = .ok (some v) → v.Throughout Value.IsShort

/-- No answers make no loops. -/
theorem Answers.none_makeNoLoops : Answers.none.MakeNoLoops :=
  fun _ _ _ _ h => nomatch h

theorem Answers.none_areShort : Answers.none.AreShort :=
  fun _ _ _ _ h => nomatch h

/-- What is said of all values that the code of the host gives. -/
theorem MeetsIfAny.of_ok {V : Value → Prop} {r : Except Error (Option Value)}
    (h : ∀ v, r = .ok (some v) → V v) : MeetsIfAny V (fun _ => True) r := by
  cases r with
  | ok found => exact fun v hv => h v (hv ▸ rfl)
  | error e => trivial

/-! ## Filters -/

/-- The values of the arguments. -/
def Arguments.values (args : Arguments) : List Value :=
  args.positional ++ args.keywords.map Prod.snd

/-- What holds of all arguments holds of those without a name and of those with one. -/
theorem Arguments.All.values {V : Value → Prop} {args : Arguments} (h : args.All V) :
    ∀ v ∈ args.values, V v := by
  intro v hv
  rcases List.mem_append.mp hv with hv | hv
  · exact h.positional v hv
  · obtain ⟨e, he, rfl⟩ := List.mem_map.mp hv
    exact h.keywords e he

/-- Wherever the filter gives a description of a loop, it was within what the filter was given, or
could be got hold of. -/
def Filter.MakesNoLoops (f : Filter) : Prop :=
  ∀ (view : View) input args v, view.answers.MakeNoLoops → f.run view input args = .ok v →
    ∀ w ∈ v.parts, w.isLoop = true →
      w ∈ input.parts ∨ w ∈ args.values.flatMap Value.parts ∨ w ∈ view.reach

/-- What can be seen is in reach. -/
theorem View.throughout_of_find? {view : View} {p : Value → Prop} (h : ∀ w ∈ view.reach, p w)
    {name : String} {v : Value} (hv : view.find? name = some v) : v.Throughout p := by
  refine forall_mem_reach.mp h v (mem_bound.mpr ?_)
  rcases Option.or_eq_some_iff.mp hv with hv | ⟨-, hv⟩
  · rcases Option.or_eq_some_iff.mp hv with hv | ⟨-, hv⟩
    · obtain ⟨scope, hscope, he⟩ := Scopes.exists_mem_of_findIn? hv
      exact .inl ⟨scope, hscope, _, he, rfl⟩
    · exact .inr (.inl ⟨_, Assoc.mem_of_get?_eq_some hv, rfl⟩)
  · obtain ⟨environment, henv, he⟩ := Scopes.exists_mem_of_findIn? hv
    exact .inr (.inr (.inl ⟨environment, henv, _, he, rfl⟩))

/-- The standard filters make no loops. -/
theorem Filter.standard_makesNoLoops : ∀ e ∈ Filter.standard, e.2.MakesNoLoops := by
  intro e he view input args v hanswers hrun w hw hloop
  -- To have come from somewhere is handed down.
  let p (w : Value) : Prop := w.isLoop = true →
    w ∈ input.parts ∨ w ∈ args.values.flatMap Value.parts ∨ w ∈ view.reach
  have hlisted : Hereditary.Listed (·.Throughout p) (fun _ => True) :=
    Value.listed_throughout
      (fun v hv => by
        cases v with
        | drop => exact nomatch hv
        | _ => exact nofun)
      fun _ => nofun
  have hview : view.All (·.Throughout p) fun _ => True :=
    ⟨fun _ _ hv => View.throughout_of_find? (fun w hw _ => .inr (.inr hw)) hv,
      fun id name => .of_ok fun v hv w hw hloop =>
        .inr (.inr (hanswers view id name v hv w hw hloop))⟩
  have hargs : args.All (·.Throughout p) := by
    have hvalues {v : Value} (hv : v ∈ args.values) : v.Throughout p :=
      fun w hw _ => .inr (.inl (List.mem_flatMap.mpr ⟨v, hv, hw⟩))
    refine ⟨fun v hv => hvalues ?_, fun e he => hvalues ?_⟩
    · exact List.mem_append_left _ hv
    · exact List.mem_append_right _ (List.mem_map_of_mem he)
  have hresult := standard_keeps hlisted e he view input args hview (fun w hw _ => .inl hw) hargs
    fun _ => trivial
  rw [hrun] at hresult
  exact hresult w hw hloop

end Stencil
