import Stencil.Proofs.Lockstep
import Stencil.Proofs.Slices
import Stencil.Template

/-!
# The turns of a loop

A loop takes its items from a slice of its collection and renders its body once for each of them, in
order or in reverse. In every turn the item and the description of the loop are bound anew. A turn
uses up one interrupt, and a break that it finds ends the loop. So a loop visits its whole slice, if
no interrupt is pending when it is begun and its body leaves none behind.

A loop that is begun while a break is pending, as in an arm of a choice that is taken up after the
break of another arm, takes that break for one of its own.

## Key definitions

- `Amounts`: what the attributes of a loop amount to
- `Turns`: the states in which the body of a loop is rendered, one after the other
- `IsTurn`: what the body finds in such a state

## Key results

- `Render.loopSlice_eq`: what a loop runs over
- `Turns.of_steps`: the turns of any loop
- `Turns.complete`: a loop that nothing interrupts takes all its turns
- `Tag.render_loop`: loops visit their slices
-/

namespace Stencil

open Render

/-! ## Attributes -/

/-- What an attribute of a loop amounts to: nothing if it is left out or nil, and else a number,
where one below zero counts as zero. -/
inductive Amounts (view : View) : Option Expression → Option Nat → Prop where
  | absent : Amounts view none none
  | nil {e : Expression} {v : Value} :
      e.evaluate view = .ok v → v.scalar = .nil → Amounts view (some e) none
  | whole {e : Expression} {v : Value} {n : Int64} :
      e.evaluate view = .ok v → v.scalar ≠ .nil → v.scalar.toInteger = .ok n →
        Amounts view (some e) (some n.toInt.toNat)

namespace Amounts

variable {settings : Settings} {s : RenderState} {amount : Option Nat}

/-- An attribute is evaluated to the amount. -/
private theorem loopAttribute_eq {e : Expression}
    (h : Amounts (settings.view s) (some e) amount) :
    ∃ n : Option Int64, loopAttribute settings e s = (.ok n, s)
      ∧ n.map (·.toInt.toNat) = amount := by
  -- The attribute is nil, which counts as none, or a whole number.
  cases h with
  | @nil e v he hnil =>
    refine ⟨none, ?_, rfl⟩
    have hevaluate : Render.evaluate settings e s = (.ok v, s) := Prod.ext he rfl
    unfold loopAttribute
    rw [Attempt.bind_of_ok hevaluate, hnil]
    rfl
  | @whole e v n he hnotNil hn =>
    refine ⟨some n, ?_, rfl⟩
    have hevaluate : Render.evaluate settings e s = (.ok v, s) := Prod.ext he rfl
    unfold loopAttribute
    rw [Attempt.bind_of_ok hevaluate]
    cases hscalar : v.scalar <;> rw [hscalar] at hn hnotNil <;>
      first
      | exact absurd rfl hnotNil
      | (dsimp only; rw [hn]; rfl)

/-- A loop starts at its offset, or at the first item. -/
theorem loopStart_eq {offset : Option Expression} (h : Amounts (settings.view s) offset amount)
    (name : String) :
    loopStart settings name (offset.map .at) s = (.ok (amount.getD 0), s) := by
  -- Without an offset the loop starts at the first item.
  cases offset with
  | none =>
    cases h
    rfl
  | some e =>
    obtain ⟨n, hattribute, hn⟩ := h.loopAttribute_eq
    unfold loopStart
    dsimp only [Option.map_some]
    rw [Attempt.bind_of_ok hattribute, hn]
    rfl

/-- It stops behind its limit, or nowhere. -/
theorem loopStop_eq {limit : Option Expression} (h : Amounts (settings.view s) limit amount)
    (start : Nat) :
    loopStop settings start limit s = (.ok (amount.map (start + ·)), s) := by
  -- A limit counts from where the loop starts.
  cases limit with
  | none =>
    cases h
    rfl
  | some e =>
    obtain ⟨n, hattribute, hn⟩ := h.loopAttribute_eq
    unfold loopStop
    dsimp only
    rw [Attempt.bind_of_ok hattribute, ← hn, Option.map_map]
    rfl

end Amounts

/-- What a loop runs over, and where it will have stopped. -/
theorem Render.loopSlice_eq {settings : Settings} {s : RenderState} {name : String}
    {header : LoopHeader} {v : Value} {start : Nat} {limit : Option Nat}
    (hcollection : header.collection.evaluate (settings.view s) = .ok v)
    (hstart : loopStart settings name header.offset s = (.ok start, s))
    (hlimit : Amounts (settings.view s) header.limit limit) :
    let slice := Slice.of start (limit.map (start + ·)) v.liquid
    loopSlice settings name header s
      = (.ok slice, (setPosition name (start + slice.length) s).2) := by
  have hevaluate : Render.evaluate settings header.collection s = (.ok v, s) :=
    Prod.ext hcollection rfl
  unfold loopSlice
  rw [Attempt.bind_of_ok hevaluate]
  dsimp only
  rw [Attempt.bind_of_ok hstart, Attempt.bind_of_ok (hlimit.loopStop_eq start)]
  rfl

/-- An attribute that gives something amounts to it. -/
private theorem Amounts.of_loopAttribute {settings : Settings} {s t : RenderState} {e : Expression}
    {n : Option Int64} (h : loopAttribute settings e s = (.ok n, t)) :
    t = s ∧ Amounts (settings.view s) (some e) (n.map (·.toInt.toNat)) := by
  obtain ⟨v, u, hevaluate, h⟩ := Attempt.ok_of_bind h
  obtain ⟨he, rfl⟩ : e.evaluate (settings.view s) = .ok v ∧ s = u := Prod.mk.inj hevaluate
  -- Nil is no amount, and what is no integer is refused.
  cases hscalar : v.scalar with
  | nil =>
    rw [hscalar] at h
    obtain ⟨hn, rfl⟩ := Prod.mk.inj h
    cases hn
    exact ⟨rfl, .nil he hscalar⟩
  | _ =>
    rw [hscalar] at h
    obtain ⟨m, u, hlift, h⟩ := Attempt.ok_of_bind h
    obtain ⟨hm, rfl⟩ : Value.toInteger _ = .ok m ∧ s = u := Prod.mk.inj hlift
    obtain ⟨hn, rfl⟩ := Prod.mk.inj h
    cases hn
    refine ⟨rfl, .whole he ?_ (hscalar ▸ hm)⟩
    rw [hscalar]
    exact nofun

/-- A loop that starts has an offset that is an amount. -/
theorem Amounts.of_loopStart {settings : Settings} {s t : RenderState} {name : String}
    {e : Expression} {start : Nat} (h : loopStart settings name (some (.at e)) s = (.ok start, t)) :
    t = s ∧ ∃ amount, Amounts (settings.view s) (some e) amount ∧ start = amount.getD 0 := by
  obtain ⟨n, u, hattribute, hrest⟩ := Attempt.ok_of_bind h
  obtain ⟨rfl, hamounts⟩ := of_loopAttribute hattribute
  obtain ⟨hstart, rfl⟩ := Prod.mk.inj hrest
  exact ⟨rfl, _, hamounts, (Except.ok.inj hstart).symm⟩

/-- One that stops has such a limit. -/
theorem Amounts.of_loopStop {settings : Settings} {s t : RenderState} {start : Nat}
    {limit : Option Expression} {stop : Option Nat}
    (h : loopStop settings start limit s = (.ok stop, t)) :
    t = s ∧ ∃ amount, Amounts (settings.view s) limit amount ∧ stop = amount.map (start + ·) := by
  cases limit with
  | none =>
    obtain ⟨hstop, rfl⟩ := Prod.mk.inj h
    exact ⟨rfl, none, .absent, (Except.ok.inj hstop).symm⟩
  | some e =>
    obtain ⟨n, u, hattribute, hrest⟩ := Attempt.ok_of_bind h
    obtain ⟨rfl, hamounts⟩ := of_loopAttribute hattribute
    obtain ⟨hstop, rfl⟩ := Prod.mk.inj hrest
    refine ⟨rfl, _, hamounts, (Except.ok.inj hstop).symm.trans ?_⟩
    rw [Option.map_map]
    rfl

/-- Where a loop starts is read off the state. -/
theorem Render.state_loopStart {settings : Settings} {s t : RenderState} {name : String}
    {offset : Option LoopOffset} {start : Nat}
    (h : loopStart settings name offset s = (.ok start, t)) : t = s := by
  cases offset with
  | none => exact (Prod.mk.inj h).2.symm
  | some offset =>
    cases offset with
    | «continue» => exact (Prod.mk.inj h).2.symm
    | «at» e => exact (Amounts.of_loopStart h).1

/-- A loop that runs over something has a collection, a start and what its limit amounts to. -/
theorem Render.exists_of_loopSlice {settings : Settings} {s t : RenderState} {name : String}
    {header : LoopHeader} {slice : Slice}
    (h : loopSlice settings name header s = (.ok slice, t)) :
    ∃ v start limit, header.collection.evaluate (settings.view s) = .ok v
      ∧ loopStart settings name header.offset s = (.ok start, s)
      ∧ Amounts (settings.view s) header.limit limit
      ∧ slice = Slice.of start (limit.map (start + ·)) v.liquid
      ∧ t = (setPosition name (start + slice.length) s).2 := by
  -- The collection comes first, then the start, and the stop last.
  obtain ⟨v, u, hevaluate, hafter⟩ := Attempt.ok_of_bind h
  obtain ⟨hv, rfl⟩ : header.collection.evaluate (settings.view s) = .ok v ∧ s = u :=
    Prod.mk.inj hevaluate
  obtain ⟨start, u, hstart, hrest⟩ := Attempt.ok_of_bind hafter
  obtain rfl := state_loopStart hstart
  obtain ⟨stop, u', hstop, hend⟩ := Attempt.ok_of_bind hrest
  obtain ⟨rfl, limit, hlimit, rfl⟩ := Amounts.of_loopStop hstop
  obtain ⟨hslice, rfl⟩ := Prod.mk.inj hend
  cases hslice
  exact ⟨v, start, limit, hv, hstart, hlimit, rfl, rfl⟩

/-! ## Turns -/

namespace RenderState

/-- The state in which the body of a loop is rendered in the turn at an index. -/
def inTurn (name : String) (header : LoopHeader) (slice : Slice) (parent : Value) (index : Nat)
    (s : RenderState) : RenderState :=
  let place := if header.reversed then slice.length - 1 - index else index
  let loop := Value.drop (.loop s.progress.iterations name slice.length index parent)
  let scopes := (s.frame.scopes.bind header.item (slice.get place)).bind "forloop" loop
  { frame := { s.frame with scopes, loops := loop :: s.frame.loops }
    progress := { s.progress with iterations := s.progress.iterations + 1 } }

/-- The state after a turn that ended in `t`, with the running loops as they were before. -/
def afterTurn (loops : List Value) (t : RenderState) : RenderState :=
  (takeInterrupt (t.withLoops loops)).2

end RenderState

/-- A loop of `length` turns renders its body in each of the states `turns`, one after the other, if
it goes on with the turn at `index` in the state `s`; it results in `r` and leaves the last state.
`loops` are the loops around it. -/
inductive Turns (inTurn : Nat → RenderState → RenderState) (body : Render Unit)
    (loops : List Value) (length : Nat) :
    (index : Nat) → (s : RenderState) → (turns : List RenderState) → (r : Except Error Unit) →
      RenderState → Prop where
  | done {s} : Turns inTurn body loops length length s [] (.ok ()) s
  | failed {index s t e} : index < length → body (inTurn index s) = (.error e, t) →
      Turns inTurn body loops length index s [inTurn index s] (.error e) (t.withLoops loops)
  /-- A break ends the loop. -/
  | broken {index s t} : index < length → body (inTurn index s) = (.ok (), t) →
      t.frame.interrupts.head? = some .break →
      Turns inTurn body loops length index s [inTurn index s] (.ok ()) (t.afterTurn loops)
  | next {index s t turns r u} : index < length → body (inTurn index s) = (.ok (), t) →
      t.frame.interrupts.head? ≠ some .break →
      Turns inTurn body loops length (index + 1) (t.afterTurn loops) turns r u →
      Turns inTurn body loops length index s (inTurn index s :: turns) r u

section

variable (name : String) (header : LoopHeader) (slice : Slice) (parent : Value)

/-- The body is rendered in the state of the turn, and the loops around it are put back. -/
private theorem inLoop_beginTurn (body : Render Unit) (index : Nat) (s : RenderState) :
    inLoop (.drop (.loop s.progress.iterations name slice.length index parent)) body
        (beginTurn name header slice parent index s).2
      = ((body (s.inTurn name header slice parent index)).1,
          (body (s.inTurn name header slice parent index)).2.withLoops s.frame.loops) :=
  inLoop_eq _ _ _

/-- A turn begins with its own number. -/
private theorem beginTurn_eq (index : Nat) (s : RenderState) :
    beginTurn name header slice parent index s
      = (.ok (.drop (.loop s.progress.iterations name slice.length index parent)),
          (beginTurn name header slice parent index s).2) := rfl

variable {name header slice parent} {body : Render Unit}

/-- A turn that ends well goes on, unless a `break` is pending. -/
private theorem iteration_of_ok {index : Nat} {s t : RenderState}
    (h : body (s.inTurn name header slice parent index) = (.ok (), t)) :
    iteration name header slice parent body index s
      = (.ok (t.frame.interrupts.head? != some .break), t.afterTurn s.frame.loops) := by
  have hbody := inLoop_beginTurn name header slice parent body index s
  rw [h] at hbody
  unfold iteration
  rw [Attempt.bind_of_ok (beginTurn_eq name header slice parent index s), Attempt.bind_of_ok hbody]
  rfl

/-- A turn that fails leaves the loops as they were. -/
private theorem iteration_of_error {index : Nat} {s t : RenderState} {e : Error}
    (h : body (s.inTurn name header slice parent index) = (.error e, t)) :
    iteration name header slice parent body index s
      = (.error e, t.withLoops s.frame.loops) := by
  have hbody := inLoop_beginTurn name header slice parent body index s
  rw [h] at hbody
  unfold iteration
  rw [Attempt.bind_of_ok (beginTurn_eq name header slice parent index s),
    Attempt.bind_of_error hbody]

/-- The turns of a loop that goes on with its last `remaining` ones. -/
theorem Turns.of_steps {length remaining : Nat} (hremaining : remaining ≤ length)
    (s : RenderState) : ∃ turns,
      Turns (RenderState.inTurn name header slice parent) body s.frame.loops length
        (length - remaining) s turns
        (steps (iteration name header slice parent body) length remaining s).1
        (steps (iteration name header slice parent body) length remaining s).2 := by
  -- By induction on the turns that remain, of which the first has the index `length - remaining`.
  induction remaining generalizing s with
  | zero => exact ⟨[], .done⟩
  | succ remaining ih =>
    have hindex : length - (remaining + 1) < length := by omega
    rw [steps_succ]
    cases hbody : body (s.inTurn name header slice parent (length - (remaining + 1))) with
    | mk r t =>
      cases r with
      | error e =>
        rw [Attempt.bind_of_error (iteration_of_error hbody)]
        exact ⟨_, .failed hindex hbody⟩
      | ok a =>
        rw [Attempt.bind_of_ok (iteration_of_ok hbody)]
        -- Only a pending `break` ends the loop; a `continue` is taken up by the turn.
        by_cases hbreak : t.frame.interrupts.head? = some .break
        · rw [hbreak]
          exact ⟨_, .broken hindex hbody hbreak⟩
        · have hmore : (t.frame.interrupts.head? != some .break) = true := bne_iff_ne.mpr hbreak
          obtain ⟨turns, hturns⟩ := ih (by omega) (t.afterTurn s.frame.loops)
          have hnext : length - remaining = length - (remaining + 1) + 1 := by omega
          rw [hnext] at hturns
          rw [hmore, if_pos rfl]
          exact ⟨_, .next hindex hbody hbreak hturns⟩

end

namespace Turns

variable {inTurn : Nat → RenderState → RenderState} {body : Render Unit} {loops : List Value}
  {length index : Nat} {s u : RenderState} {turns : List RenderState} {r : Except Error Unit}

/-- In which state a turn is begun. -/
theorem getElem?_eq (h : Turns inTurn body loops length index s turns r u)
    (hloops : s.frame.loops = loops) {i : Nat} {t : RenderState} (ht : turns[i]? = some t) :
    index + i < length ∧ ∃ t', t = inTurn (index + i) t' ∧ t'.frame.loops = loops := by
  -- The first turn has the index at which the loop stands, and with each turn it is one more.
  induction h generalizing i with
  | done => exact nomatch ht
  | failed hindex hbody | broken hindex hbody hbreak =>
    cases i with
    | zero => exact ⟨hindex, _, (Option.some.inj ht).symm, hloops⟩
    | succ i => exact nomatch ht
  | @next index _ _ _ _ _ hindex hbody hbreak _ ih =>
    cases i with
    | zero => exact ⟨hindex, _, (Option.some.inj ht).symm, hloops⟩
    | succ i =>
      have hrest := ih rfl ht
      rwa [show index + 1 + i = index + (i + 1) by omega] at hrest

/-- A loop that is begun with no interrupt pending, and whose body does not fail and leaves none
behind, takes all its turns. -/
theorem complete (h : Turns inTurn body loops length index s turns r u)
    (hinTurn : ∀ index s, (inTurn index s).frame.interrupts = s.frame.interrupts)
    (hs : s.frame.interrupts = [])
    (hbody : ∀ t ∈ turns, (body t).1 = .ok ()
      ∧ (body t).2.frame.interrupts = t.frame.interrupts) :
    turns.length = length - index ∧ r = .ok () := by
  -- By induction on the turns: a turn that leaves nothing pending cannot be the last one before the
  -- end.
  induction h with
  | done => exact ⟨(Nat.sub_self _).symm, rfl⟩
  | failed hindex hfail =>
    have hok := (hbody _ (List.mem_singleton_self _)).1
    rw [hfail] at hok
    exact nomatch hok
  | broken hindex hok hbreak =>
    have hnone := (hbody _ (List.mem_singleton_self _)).2
    rw [hok, hinTurn, hs] at hnone
    rw [hnone] at hbreak
    exact nomatch hbreak
  | @next index s t turns r u hindex hok hbreak _ ih =>
    obtain ⟨hfirst, hrest⟩ := List.forall_mem_cons.mp hbody
    have hnone : t.frame.interrupts = [] := by
      have hleft := hfirst.2
      rwa [hok, hinTurn, hs] at hleft
    have hafter : (t.afterTurn loops).frame.interrupts = [] := congrArg List.tail hnone
    obtain ⟨hlength, hr⟩ := ih hafter hrest
    refine ⟨?_, hr⟩
    rw [List.length_cons, hlength]
    omega

end Turns

/-! ## What a turn finds -/

/-- The value is a number, or the largest one there is if that is too large. -/
def Value.IsCount (v : Value) (n : Nat) : Prop :=
  ∃ k : Int64, v = .int k ∧ k.toInt = min (n : Int) Decimal.maxWhole

/-- A number of items is given as a count. -/
theorem Value.isCount_ofCount (n : Nat) : (ofCount n).IsCount n := by
  refine ⟨Decimal.ofCount n, rfl, ?_⟩
  unfold Decimal.ofCount
  rw [Decimal.toInt_saturate]
  simp only [Decimal.minWhole, Decimal.maxWhole]
  omega

/-- The loop answers to a name with a value that satisfies `P`. -/
def Value.Answers (view : View) (loop : Value) (name : String) (P : Value → Prop) : Prop :=
  ∃ v, loop.lookup view (.str name) true = .ok (some v) ∧ P v

/-- What the description of a loop answers in the turn number `i` of `n`, counted from zero. -/
structure Describes (view : View) (loop : Value) (n i : Nat) (parent : Value) : Prop where
  length : loop.Answers view "length" (·.IsCount n)
  index : loop.Answers view "index" (·.IsCount (i + 1))
  index0 : loop.Answers view "index0" (·.IsCount i)
  rindex : loop.Answers view "rindex" (·.IsCount (n - i))
  rindex0 : loop.Answers view "rindex0" (·.IsCount (n - i - 1))
  first : loop.Answers view "first" (· = .bool (i == 0))
  last : loop.Answers view "last" (· = .bool (i + 1 == n))
  parentloop : loop.Answers view "parentloop" (· = parent)

/-- A loop answers with its own numbers. -/
theorem describes_loop (view : View) (serial : Nat) (name : String) (n i : Nat) (parent : Value) :
    Describes view (.drop (.loop serial name n i parent)) n i parent where
  length := ⟨_, rfl, Value.isCount_ofCount _⟩
  index := ⟨_, rfl, Value.isCount_ofCount _⟩
  index0 := ⟨_, rfl, Value.isCount_ofCount _⟩
  rindex := ⟨_, rfl, Value.isCount_ofCount _⟩
  rindex0 := ⟨_, rfl, Value.isCount_ofCount _⟩
  first := ⟨_, rfl, rfl⟩
  last := ⟨_, rfl, rfl⟩
  parentloop := ⟨_, rfl, rfl⟩

/-- What the body of a loop that visits some items finds in the turn at an index, where `loops` are
the loops around it. -/
structure IsTurn (settings : Settings) (item : String) (visited : List Value)
    (loops : List Value) (index : Nat) (s : RenderState) : Prop where
  item : (settings.view s).find? item = visited[index]?
  forloop : ∃ loop, (settings.view s).find? "forloop" = some loop
    ∧ s.frame.loops = loop :: loops
    ∧ Describes (settings.view s) loop visited.length index (loops.head?.getD .nil)

/-- In a turn the item and the loop are bound. -/
theorem isTurn_inTurn {settings : Settings} {name : String} {header : LoopHeader} {slice : Slice}
    {index : Nat} (hindex : index < slice.length) (hitem : header.item ≠ "forloop")
    (s : RenderState) :
    IsTurn settings header.item
      (if header.reversed then slice.toList.reverse else slice.toList) s.frame.loops index
      (s.inTurn name header slice (s.frame.loops.head?.getD .nil) index) where
  item := by
    unfold View.find? Settings.view RenderState.inTurn
    dsimp only
    rw [Scopes.find?_bind, if_neg hitem, Scopes.find?_bind, if_pos rfl]
    -- A reversed loop takes its items from the end.
    cases header.reversed with
    | true => exact (Slice.getElem?_reverse_toList hindex).symm
    | false => exact (Slice.getElem?_toList hindex).symm
  forloop := by
    refine ⟨_, ?_, rfl, ?_⟩
    · unfold View.find? Settings.view RenderState.inTurn
      dsimp only
      rw [Scopes.find?_bind, if_pos rfl]
      rfl
    · -- Reversed or not, there are as many items.
      have hlength : (if header.reversed then slice.toList.reverse else slice.toList).length
          = slice.length := by
        cases header.reversed <;> simp
      rw [hlength]
      exact describes_loop ..

/-! ## Loops -/

/-- A loop that has items renders its body in some turns, one after the other. -/
theorem Tag.exists_turns {settings : Settings} {name : String} {header : LoopHeader}
    {slice : Slice} {s t : RenderState} (partials : PartialRenderer) (body : Body)
    (otherwise : Option Body) (line : Option Nat) (blank : Bool)
    (hslice : loopSlice settings name header s = (.ok slice, t)) (hitems : slice.length ≠ 0)
    (hdepth : exceeds (t.progress.budget.depth + 1) t.progress.budget.depthCeiling = false) :
    ∃ turns r u,
      Turns (RenderState.inTurn name header slice (t.frame.loops.head?.getD .nil))
          (body.render settings partials) t.frame.loops slice.length 0 t.entered turns r u
        ∧ Tag.render settings partials (.loop name header body otherwise line blank) s
          = (r, u.popScope) := by
  let turn := iteration name header slice (t.frame.loops.head?.getD .nil)
    (Body.render settings partials body)
  have hall : ∃ turns,
      Turns (RenderState.inTurn name header slice (t.frame.loops.head?.getD .nil))
        (body.render settings partials) t.frame.loops slice.length (slice.length - slice.length)
        t.entered turns (steps turn slice.length slice.length t.entered).1
        (steps turn slice.length slice.length t.entered).2 :=
    Turns.of_steps (Nat.le_refl slice.length) t.entered
  obtain ⟨turns, hturns⟩ := hall
  rw [Nat.sub_self] at hturns
  -- There is room for the scope of the loop.
  have hscope := inScope_eq (steps turn slice.length slice.length) t
  rw [if_neg (Bool.eq_false_iff.mp hdepth)] at hscope
  refine ⟨turns, _, _, hturns, ?_⟩
  rw [Tag.render, Attempt.bind_of_ok hslice, if_neg hitems]
  exact hscope

/-- A loop whose attributes are numbers or nil visits the slice of its collection that they say,
from the first item to the last or in reverse. Without items its other body is rendered, if there is
one. Otherwise its body is rendered in some turns, one for each item from the first on, and in each
of them it finds the item and what describes the loop. These are all items if no interrupt is
pending when the loop is begun and its body never fails or leaves one behind. -/
theorem Tag.render_loop {settings : Settings} {partials : PartialRenderer} {name : String}
    {header : LoopHeader} {body : Body} {otherwise : Option Body} {line : Option Nat} {blank : Bool}
    {s : RenderState} {v : Value} {offset : Option Expression} {o l : Option Nat}
    (hcollection : header.collection.evaluate (settings.view s) = .ok v)
    (hoffset : header.offset = offset.map .at) (ho : Amounts (settings.view s) offset o)
    (hl : Amounts (settings.view s) header.limit l) (hitem : header.item ≠ "forloop")
    (hdepth : exceeds (s.progress.budget.depth + 1) s.progress.budget.depthCeiling = false) :
    let loop : Tag := .loop name header body otherwise line blank
    let start := o.getD 0
    let stop := l.map (start + ·)
    let items := Slice.cut start stop v.liquid.loopItems
    let visited := if header.reversed then items.reverse else items
    let t := (setPosition name (start + items.length) s).2
    let inTurn := RenderState.inTurn name header (Slice.of start stop v.liquid)
      (s.frame.loops.head?.getD .nil)
    (items = [] → loop.render settings partials s = Body.renderIfAny settings partials otherwise t)
      ∧ (items ≠ [] → ∃ turns r u,
          Turns inTurn (body.render settings partials) s.frame.loops items.length 0 t.entered
              turns r u
            ∧ loop.render settings partials s = (r, u.popScope)
            ∧ (∀ i s', turns[i]? = some s' →
                IsTurn settings header.item visited s.frame.loops i s')
            ∧ (s.frame.interrupts = [] →
                (∀ s' ∈ turns, (body.render settings partials s').1 = .ok ()
                  ∧ (body.render settings partials s').2.frame.interrupts
                    = s'.frame.interrupts) →
                turns.length = visited.length ∧ r = .ok ())) := by
  intro loop start stop items visited t inTurn
  let slice := Slice.of start stop v.liquid
  have hstart : loopStart settings name header.offset s = (.ok start, s) := by
    rw [hoffset]
    exact ho.loopStart_eq name
  have hslice : slice.toList = items := Slice.toList_of start stop v.liquid
  have hlength : slice.length = items.length := by rw [← hslice, Slice.length_toList]
  -- The slice is found without a change but for the position that is noted.
  have hloopSlice : loopSlice settings name header s = (.ok slice, t) := by
    have h := Render.loopSlice_eq hcollection hstart hl
    dsimp only at h
    rw [h]
    exact Prod.ext rfl (congrArg (fun n => (setPosition name (start + n) s).2) hlength)
  refine ⟨fun hempty => ?_, fun hitems => ?_⟩
  · have hzero : slice.length = 0 := by rw [hlength, hempty, List.length_nil]
    show Tag.render settings partials (.loop name header body otherwise line blank) s = _
    rw [Tag.render, Attempt.bind_of_ok hloopSlice, if_pos hzero]
  · have hvisited : visited.length = items.length := by
      show (if header.reversed then items.reverse else items).length = _
      cases header.reversed <;> simp
    have hsome : slice.length ≠ 0 := fun h =>
      hitems (List.length_eq_zero_iff.mp (hlength.symm.trans h))
    obtain ⟨turns, r, u, hturns, hrender⟩ :=
      Tag.exists_turns partials body otherwise line blank hloopSlice hsome hdepth
    rw [hlength] at hturns
    refine ⟨turns, r, u, hturns, hrender, fun i s' hs' => ?_, fun hnone hbody => ?_⟩
    · -- A turn binds the item at its index, from the end if the loop is reversed.
      obtain ⟨hi, t', rfl, hloops⟩ := hturns.getElem?_eq rfl hs'
      rw [Nat.zero_add] at hi ⊢
      have hturn : IsTurn settings header.item
          (if header.reversed then slice.toList.reverse else slice.toList) t'.frame.loops i
          (t'.inTurn name header slice (t'.frame.loops.head?.getD .nil) i) :=
        isTurn_inTurn (hlength ▸ hi) hitem t'
      rw [hslice, hloops] at hturn
      exact hturn
    · -- Without a pending interrupt there are as many turns as items.
      obtain ⟨hall, hr⟩ := hturns.complete (fun _ _ => rfl) hnone hbody
      exact ⟨by rw [hall, hvisited, Nat.sub_zero], hr⟩

/-- The second to the fourth of five integers, in reverse. -/
theorem Tag.render_loop_reversed :
    let header : LoopHeader :=
      { item := "x"
        collection := .range (.literal (.int 1)) (.literal (.int 5))
        reversed := true
        offset := some (.at (.literal (.int 1)))
        limit := some (.literal (.int 3)) }
    let body : Body := .mk [.output { source := .variable "x", filters := [] }] false
    let loop : Tag := .loop "x-(1..5)" header body none none false
    let partials : PartialRenderer := fun _ => Attempt.fail .tooDeep
    let visited : List Value := [.int 4, .int 3, .int 2]
    header.item ≠ "forloop"
      ∧ (∃ (turns : List RenderState) (r : Except Error Unit) (u : RenderState),
          loop.render {} partials {} = (r, u.popScope)
            ∧ (∀ i s', turns[i]? = some s' → IsTurn {} "x" visited [] i s')
            ∧ ((∀ s' ∈ turns, (body.render {} partials s').1 = .ok ()
                ∧ (body.render {} partials s').2.frame.interrupts = s'.frame.interrupts) →
              turns.length = 3 ∧ r = .ok ()))
      ∧ (loop.render {} partials {}).2.progress.output = "432" := by
  intro header body loop partials visited
  have hitem : header.item ≠ "forloop" := by decide
  have hcollection : header.collection.evaluate (Settings.view {} {}) = .ok (.range 1 5) := rfl
  have hoffset : Amounts (Settings.view {} {}) (some (.literal (.int 1))) (some 1) :=
    .whole (v := .int 1) rfl nofun rfl
  have hlimit : Amounts (Settings.view {} {}) header.limit (some 3) :=
    .whole (v := .int 3) rfl nofun rfl
  have hloop := @Tag.render_loop {} partials "x-(1..5)" header body none none false {} (.range 1 5)
    _ _ _ hcollection rfl hoffset hlimit hitem rfl
  have hitems : Slice.cut 1 (some 4) (Value.range 1 5).liquid.loopItems
      = [.int 2, .int 3, .int 4] := rfl
  have hloop := hloop.2 fun hempty => List.cons_ne_nil _ _ (hitems.symm.trans hempty)
  obtain ⟨turns, r, u, -, hrender, hfinds, hall⟩ := hloop
  exact ⟨hitem, ⟨turns, r, u, hrender, hfinds, hall rfl⟩, by decide +kernel⟩

/-- Reads `{% for i in (1..2) %}{% case 1 %}{% when 1 %}{% break %}{% when 1 %}`
`{% for j in (1..3) %}x{% endfor %}{% endcase %}{% endfor %}`. -/
private def loopAfterBreak : Except Error Unit × Template :=
  Template.parse {} ("\x7b% for i in (1..2) %\x7d\x7b% case 1 %\x7d"
    ++ "\x7b% when 1 %\x7d\x7b% break %\x7d\x7b% when 1 %\x7d"
    ++ "\x7b% for j in (1..3) %\x7dx\x7b% endfor %\x7d"
    ++ "\x7b% endcase %\x7d\x7b% endfor %\x7d")

/-- A loop that is begun while a break is pending renders its body for the first of its three items
only, although the body neither fails nor breaks. So it is with the inner loop of a template whose
outer one goes on, because its break is used up. -/
theorem Tag.not_render_loop_interrupted :
    let header : LoopHeader :=
      { item := "j", collection := .range (.literal (.int 1)) (.literal (.int 3)) }
    let body : Body := .mk [.text "x"] false
    let loop : Tag := .loop "j-(1..3)" header body none none false
    let partials : PartialRenderer := fun _ => Attempt.fail .tooDeep
    let s : RenderState := { frame.interrupts := [.break] }
    let t := (setPosition "j-(1..3)" 3 s).2
    let inTurn := RenderState.inTurn "j-(1..3)" header (Slice.of 0 none (.range 1 3)) .nil
    (∃ (turns : List RenderState) (r : Except Error Unit) (u : RenderState),
        Turns inTurn (body.render {} partials) [] 3 0 t.entered turns r u
          ∧ loop.render {} partials s = (r, u.popScope)
          ∧ (∀ s' ∈ turns, (body.render {} partials s').1 = .ok ()
              ∧ (body.render {} partials s').2.frame.interrupts = s'.frame.interrupts)
          ∧ turns.length = 1)
      ∧ (Slice.cut 0 none (Value.range 1 3).loopItems).length = 3
      ∧ loopAfterBreak.1.isOk = true
      ∧ (loopAfterBreak.2.render []).1.toOption = some "xx" := by
  intro header body loop partials s t inTurn
  have hslice : loopSlice {} "j-(1..3)" header s = (.ok (Slice.of 0 none (.range 1 3)), t) := rfl
  obtain ⟨turns, r, u, hturns, hrender⟩ :=
    Tag.exists_turns partials body none none false hslice (by decide) rfl
  have hbody : body.render {} partials (inTurn 0 t.entered)
      = (.ok (), (body.render {} partials (inTurn 0 t.entered)).2) := rfl
  refine ⟨⟨turns, r, u, hturns, hrender, ?_⟩, rfl, by decide +kernel⟩
  -- The only turn ends with the break that was there before.
  cases hturns with
  | failed hindex hfail => exact nomatch congrArg Prod.fst (hbody.symm.trans hfail)
  | broken hindex hok hbreak =>
    exact ⟨List.forall_mem_singleton.mpr ⟨rfl, rfl⟩, rfl⟩
  | @next _ _ t' _ _ _ hindex hok hmore =>
    obtain rfl : (body.render {} partials (inTurn 0 t.entered)).2 = t' :=
      congrArg Prod.snd (hbody.symm.trans hok)
    exact absurd rfl hmore

end Stencil
