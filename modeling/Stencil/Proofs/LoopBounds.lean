import Stencil.Proofs.Contexts
import Stencil.Proofs.SoundLoops
import Stencil.Proofs.Turns

/-!
# Loops stay in bounds

Positions, offsets and limits are template integers, and a loop adds and subtracts them. Whatever
was rendered before, and whatever a host did meanwhile, no such sum or difference leaves the
integers that it is computed in: positions stay template integers, slices lie within their
collections, and loops are described by counts that are not below zero.

A state arises if it begins with what earlier states left, or comes up while a host goes on from a
state that arose. Positions and descriptions of loops cannot be made in other ways.

## Key definitions

- `Slice.InBounds`: the arithmetic of one slice
- `RenderState.LoopsInBounds`: the arithmetic of all loops in a state
- `RenderState.Arises`: the states that come up

## Key results

- `Course.sound_stations`: courses of a host keep states sound
- `RenderState.Arises.loopsInBounds`: loops stay in bounds in all states that arise
-/

namespace Stencil

open Render

/-! ## Slices -/

namespace Slice

/-- In the slice of a collection from `start` on and before `stop`, nothing leaves its bounds. -/
structure InBounds (start : Nat) (stop : Option Nat) (v : Value) : Prop where
  starts : (start : Int) ≤ Decimal.maxWhole
  stops : ∀ n, stop = some n → n < 2 ^ 64
  /-- Where a loop over the slice stops. -/
  position : ((start + (of start stop v).length : Nat) : Int) ≤ Decimal.maxWhole
  /-- The ends are moved into the items, in order, and the slice is what is between them. -/
  ends :
    let last := min (stop.getD v.loopItems.length) v.loopItems.length
    let first := min start last
    first ≤ last ∧ last ≤ v.loopItems.length ∧ first + (of start stop v).length = last
      ∧ (of start stop v).toList = (v.loopItems.take last).drop first
  /-- The members of a range are in the range, and adding up what they are never saturates. -/
  range : ∀ a b, v = .range a b → ∀ index < (of start stop v).length, ∃ n : Int64,
    (of start stop v).get index = .int n
      ∧ n = Decimal.saturate ((Decimal.saturate (a.toInt + start)).toInt + index)
      ∧ n.toInt = a.toInt + start + index ∧ a.toInt ≤ n.toInt ∧ n.toInt ≤ b.toInt

variable {start : Nat} {stop : Option Nat} {v : Value}

/-- A member of a range that is cut. -/
private theorem get_of_range {a b : Int64} {index : Nat}
    (hindex : index < (of start stop (.range a b)).length) :
    ∃ n : Int64, (of start stop (.range a b)).get index = .int n
      ∧ n = Decimal.saturate ((Decimal.saturate (a.toInt + start)).toInt + index)
      ∧ n.toInt = a.toInt + start + index ∧ a.toInt ≤ n.toInt ∧ n.toInt ≤ b.toInt := by
  rw [length_of_range] at hindex
  -- There are members only if the start is within the range.
  have hleft : min start (min (stop.getD (rangeLength a b)) (rangeLength a b)) = start := by omega
  have hlast : a.toInt + start + index ≤ b.toInt := by
    unfold rangeLength at hindex
    omega
  have hmin := a.le_toInt
  have hmax := b.toInt_lt
  have hstart : (Decimal.saturate (a.toInt + start)).toInt = a.toInt + start := by
    rw [Decimal.toInt_saturate]
    simp only [Decimal.minWhole, Decimal.maxWhole]
    omega
  have hsum : (Decimal.saturate (a.toInt + start + index)).toInt = a.toInt + start + index := by
    rw [Decimal.toInt_saturate]
    simp only [Decimal.minWhole, Decimal.maxWhole]
    omega
  refine ⟨Decimal.saturate (a.toInt + start + index), ?_, by rw [hstart], hsum, ?_, ?_⟩
  · have hget : (of start stop (.range a b)).get index = .int (Int64.ofInt
        (a.toInt + (min start (min (stop.getD (rangeLength a b)) (rangeLength a b)) : Nat)
          + index)) := rfl
    rw [hget, hleft, Value.int.injEq, ← Int64.toInt_inj, hsum]
    exact Int64.toInt_ofInt_of_le (by omega) (by omega)
  · rw [hsum]
    omega
  · rw [hsum]
    exact hlast

/-- A slice of a collection with few enough items is in bounds, if its ends are. -/
theorem inBounds (hstart : (start : Int) ≤ Decimal.maxWhole)
    (hstop : ∀ n, stop = some n → n < 2 ^ 64) (hv : v.IsShort) : InBounds start stop v where
  starts := hstart
  stops := hstop
  position := add_length_le stop hstart hv
  ends := by
    intro last first
    have hlength := length_of start stop v
    refine ⟨Nat.min_le_right .., Nat.min_le_right .., ?_, ?_⟩
    · omega
    · rw [toList_of, cut, List.take_eq_take_min, List.drop_eq_drop_iff, List.length_take]
      omega
  range a b hrange index hindex := by
    subst hrange
    exact get_of_range hindex

/-- All members of a collection are the slice of it that nothing is cut from. -/
theorem eq_of_all? {members : Slice} (h : all? v = some members) : members = of 0 none v := by
  have hcut (items : List Value) : cut 0 none items = items := by
    rw [cut, Option.getD_none, List.take_length, List.drop_zero]
  unfold all? at h
  split at h
  · cases h
    rw [of, hcut]
  · cases h
    rw [of, hcut]
  · cases h
    simp [of]
  · obtain ⟨items, hitems, rfl⟩ := Option.map_eq_some_iff.mp h
    rw [of, hcut, hitems, Option.getD_some]
  · cases h

end Slice

/-! ## Loops in a state -/

/-- If the value describes a loop, what it tells about the turns that are left are differences that
are not below zero. -/
def Value.CountsDown (w : Value) : Prop :=
  ∀ serial name length index parent, w = .drop (.loop serial name length index parent) →
    ∃ left rest : Nat, (left : Int) = length - index ∧ (rest : Int) = length - index - 1
      ∧ ∀ view, w.Answers view "rindex" (· = .ofCount left)
        ∧ w.Answers view "rindex0" (· = .ofCount rest)

theorem Value.InTurn.countsDown {w : Value} (h : w.InTurn) : w.CountsDown := by
  rintro serial name length index parent rfl
  have hindex : index < length := h
  refine ⟨length - index, length - index - 1, by omega, by omega, fun view => ⟨?_, ?_⟩⟩
  · exact ⟨_, rfl, rfl⟩
  · exact ⟨_, rfl, rfl⟩

/-- In all that a render can do with loops in this state, nothing leaves its bounds. -/
structure RenderState.LoopsInBounds (s : RenderState) : Prop where
  /-- All positions that are kept are template integers. -/
  positions : ∀ e ∈ s.positions, (e.2 : Int) ≤ Decimal.maxWhole
  /-- A loop that is entered, over whatever collection and with whatever offset and limit, runs over
  a slice that is in bounds. The position that it keeps is the sum of its start and its length. -/
  loops {settings : Settings} {name : String} {header : LoopHeader} {slice : Slice}
    {t : RenderState} : settings.registry.answers.AreShort →
    loopSlice settings name header s = (.ok slice, t) →
    ∃ v start stop, header.collection.evaluate (settings.view s) = .ok v
      ∧ loopStart settings name header.offset s = (.ok start, s)
      ∧ loopStop settings start header.limit s = (.ok stop, s)
      ∧ slice = Slice.of start stop v.liquid
      ∧ t.positions = s.positions.put name (start + slice.length)
      ∧ Slice.InBounds start stop v.liquid
  /-- Each turn of a loop binds a member of the slice, whose place is counted from the end in a loop
  that is reversed. -/
  turns {settings : Settings} {name : String} {header : LoopHeader} {slice : Slice}
    {t : RenderState} (partials : PartialRenderer) (body : Body) (otherwise : Option Body)
    (line : Option Nat) (blank : Bool) : loopSlice settings name header s = (.ok slice, t) →
    slice.length ≠ 0 →
    exceeds (t.progress.budget.depth + 1) t.progress.budget.depthCeiling = false →
    ∃ turns r u,
      Turns (RenderState.inTurn name header slice (t.frame.loops.head?.getD .nil))
          (body.render settings partials) t.frame.loops slice.length 0 t.entered turns r u
        ∧ Tag.render settings partials (.loop name header body otherwise line blank) s
          = (r, u.popScope)
        ∧ ∀ i s', turns[i]? = some s' → i < slice.length ∧ ∃ place scopes serial parent,
          place < slice.length
            ∧ (place : Int) = (if header.reversed then (slice.length : Int) - 1 - i else i)
            ∧ s'.frame.scopes = (Scopes.bind scopes header.item (slice.get place)).bind "forloop"
                (.drop (.loop serial name slice.length i parent))
  /-- A collection that a partial is rendered for is the slice of it that nothing is cut from. -/
  members {settings : Settings} {target : String} {call : PartialCall} {members : Slice}
    {t : RenderState} : settings.registry.answers.AreShort →
    passedObject settings target call s = (.ok (.each members), t) →
    ∃ e v, call.object = some e ∧ e.evaluate (settings.view s) = .ok v
      ∧ members = Slice.of 0 none v.liquid ∧ Slice.InBounds 0 none v.liquid
  /-- All loops that can be got hold of count down to zero. -/
  reach : ∀ w ∈ s.reach, w.CountsDown
  /-- So do all that expressions give, if the host's objects make no loops themselves. -/
  expressions {settings : Settings} {e : Expression} {v : Value} :
    settings.registry.answers.MakeNoLoops → e.evaluate (settings.view s) = .ok v →
      ∀ w ∈ v.parts, w.CountsDown
  /-- So do all that pipelines give, if its filters make none either. -/
  pipelines {settings : Settings} {p : Pipeline} {v : Value} : settings.MakesNoLoops →
    p.evaluate settings.registry.filters (settings.view s) = .ok v → ∀ w ∈ v.parts, w.CountsDown

/-- What the limit of a loop amounts to is a template integer. -/
theorem Amounts.le {view : View} {e : Option Expression} {n : Nat}
    (h : Amounts view e (some n)) : (n : Int) ≤ Decimal.maxWhole := by
  cases h with
  | whole => exact Decimal.toNat_toInt_le _

namespace RenderState

variable {settings : Settings} {s t : RenderState} {name : String} {header : LoopHeader}
  {slice : Slice}

/-- A loop starts from an integer of templates. -/
theorem Sound.loopStart_le (h : s.Sound) {offset : Option LoopOffset} {start : Nat}
    (hstart : loopStart settings name offset s = (.ok start, t)) :
    (start : Int) ≤ Decimal.maxWhole := by
  cases offset with
  | none =>
    obtain rfl := Except.ok.inj (Prod.mk.inj hstart).1
    decide
  | some offset =>
    cases offset with
    | «continue» =>
      obtain rfl := Except.ok.inj (Prod.mk.inj hstart).1
      exact h.position_le name
    | «at» e =>
      obtain ⟨-, amount, hamounts, rfl⟩ := Amounts.of_loopStart hstart
      cases amount with
      | none => decide
      | some n => exact hamounts.le

/-- A loop in a sound state is in bounds, if the collections in reach have few enough items. -/
theorem Sound.loopSlice (h : s.Sound) (hshort : s.IsShort)
    (hanswers : settings.registry.answers.AreShort)
    (hslice : Render.loopSlice settings name header s = (.ok slice, t)) :
    ∃ v start stop, header.collection.evaluate (settings.view s) = .ok v
      ∧ loopStart settings name header.offset s = (.ok start, s)
      ∧ loopStop settings start header.limit s = (.ok stop, s)
      ∧ slice = Slice.of start stop v.liquid
      ∧ t.positions = s.positions.put name (start + slice.length)
      ∧ Slice.InBounds start stop v.liquid := by
  obtain ⟨v, start, limit, hv, hstart, hlimit, rfl, rfl⟩ := exists_of_loopSlice hslice
  refine ⟨v, start, _, hv, hstart, hlimit.loopStop_eq start, rfl, rfl, ?_⟩
  have hstart : (start : Int) ≤ Decimal.maxWhole := h.loopStart_le hstart
  have hitems : Meets (·.liquid.IsShort) (fun _ => True)
      (header.collection.evaluate (settings.view s)) :=
    hshort.evaluate hanswers header.collection
  rw [hv] at hitems
  refine Slice.inBounds hstart (fun n hn => ?_) hitems
  -- The start and the limit are template integers, and twice the largest of them is small enough.
  obtain ⟨l, rfl, rfl⟩ := Option.map_eq_some_iff.mp hn
  have hl := hlimit.le
  simp only [Decimal.maxWhole] at hl hstart
  omega

/-- So is the collection that a partial is rendered for. -/
theorem IsShort.members (h : s.IsShort) (hanswers : settings.registry.answers.AreShort)
    {target : String} {call : PartialCall}
    (hpassed : passedObject settings target call s = (.ok (.each slice), t)) :
    ∃ e v, call.object = some e ∧ e.evaluate (settings.view s) = .ok v
      ∧ slice = Slice.of 0 none v.liquid ∧ Slice.InBounds 0 none v.liquid := by
  unfold passedObject at hpassed
  cases hobject : call.object with
  | none =>
    rw [hobject] at hpassed
    exact nomatch (Prod.mk.inj hpassed).1
  | some e =>
    rw [hobject] at hpassed
    obtain ⟨v, u, hevaluate, hrest⟩ := Attempt.ok_of_bind hpassed
    obtain ⟨hv, rfl⟩ : e.evaluate (settings.view s) = .ok v ∧ s = u := Prod.mk.inj hevaluate
    have hitems : Meets (·.liquid.IsShort) (fun _ => True) (e.evaluate (settings.view s)) :=
      h.evaluate hanswers e
    rw [hv] at hitems
    -- Members are passed on if the call asks for each of them, and the object has some.
    cases heach : call.each with
    | false =>
      rw [heach] at hrest
      exact nomatch (Prod.mk.inj hrest).1
    | true =>
      rw [heach] at hrest
      cases hall : Slice.all? v.liquid with
      | none =>
        simp only [hall, if_true] at hrest
        exact nomatch (Prod.mk.inj hrest).1
      | some members =>
        simp only [hall, if_true] at hrest
        obtain ⟨hmembers, -⟩ := Prod.mk.inj hrest
        cases hmembers
        exact ⟨e, v, rfl, hv, Slice.eq_of_all? hall, Slice.inBounds (by decide) nofun hitems⟩

theorem Sound.keepsBounds (h : s.Sound) (hshort : s.IsShort) : s.LoopsInBounds where
  positions := h.positions
  loops hanswers hslice := h.loopSlice hshort hanswers hslice
  turns {settings name header slice t} partials body otherwise line blank hslice hitems hdepth := by
    obtain ⟨turns, r, u, hturns, hrender⟩ :=
      Tag.exists_turns partials body otherwise line blank hslice hitems hdepth
    refine ⟨turns, r, u, hturns, hrender, fun i s' hs' => ?_⟩
    obtain ⟨hi, t', rfl, -⟩ := hturns.getElem?_eq rfl hs'
    rw [Nat.zero_add] at hi
    let place := if header.reversed then slice.length - 1 - i else i
    refine ⟨hi, place, t'.frame.scopes, t'.progress.iterations, t.frame.loops.head?.getD .nil,
      ?_, ?_, ?_⟩
    · dsimp only [place]
      split <;> omega
    · dsimp only [place]
      split <;> omega
    · rw [Nat.zero_add]
      rfl
  members hanswers hpassed := hshort.members hanswers hpassed
  reach w hw := (h.reach w hw).countsDown
  expressions {settings e v} hanswers hv := by
    have hsound : Meets Value.Sound (fun _ => True) (e.evaluate (settings.view s)) :=
      h.evaluate hanswers e
    rw [hv] at hsound
    exact fun w hw => (hsound w hw).countsDown
  pipelines {settings p v} hhost hv := by
    have hsound := h.pipeline hhost p
    rw [hv] at hsound
    exact fun w hw => (hsound w hw).countsDown

end RenderState

/-! ## Courses -/

section

variable {settings : Settings} {s : RenderState}

/-- The values that a host hands in. -/
def ContextAction.values : ContextAction → List Value
  | bind _ value | assign _ value | register _ value => [value]
  | _ => []

/-- The values that a host hands in on the way. -/
def Course.values : Course → List Value
  | done => []
  | act action rest => action.values ++ rest.values
  | inScope inside _ rest => inside.values ++ rest.values
  | isolated _ inside rest => inside.values ++ rest.values

/-- What a host does keeps a state sound, if the values that it hands in are. -/
theorem ContextAction.sound_step (hhost : settings.MakesNoLoops) {action : ContextAction}
    (hvalues : ∀ v ∈ action.values, v.Sound) (hs : s.Sound)
    (hshort : ∀ p ∈ action.stations settings s, p.state.IsShort) :
    (∀ p ∈ action.stations settings s, p.state.Sound) ∧ (action.step settings s).2.Sound := by
  cases action with
  | render document =>
    have hsound := document.sound_stations hhost hs hshort
    refine ⟨hsound, ?_⟩
    rw [step, Document.render_eq_run]
    exact Script.of_stations hsound
  | load name =>
    refine ⟨List.forall_mem_nil _, ?_⟩
    have hload := hs.loadPartial settings name
    show ((loadPartial settings name >>= fun _ => pure ()) s).2.Sound
    rw [Attempt.bind_apply]
    cases h : loadPartial settings name s with
    | mk r t =>
      rw [h] at hload
      cases r <;> exact hload
  | bind name value =>
    have hv : value.Sound := hvalues value List.mem_cons_self
    exact ⟨List.forall_mem_nil _, hs.of_frame (hs.frame.bind name hv) rfl⟩
  | assign name value =>
    exact ⟨List.forall_mem_nil _, hs.assign name (hvalues value List.mem_cons_self)⟩
  | register name value =>
    exact ⟨List.forall_mem_nil _, hs.setRegister name (hvalues value List.mem_cons_self)⟩
  | rescue line blank e => exact ⟨List.forall_mem_nil _, hs.rescue settings line blank e⟩
  | interrupt i | takeInterrupt =>
    exact ⟨List.forall_mem_nil _, hs.of_frame
      ⟨hs.frame.inner, hs.frame.outer, hs.frame.environments, hs.frame.loops⟩ rfl⟩
  | emit text | setBudget budget => exact ⟨List.forall_mem_nil _, hs.of_eq rfl rfl⟩

/-- At all moments of a course that starts from a sound state states are sound, if the values that
the host hands in are, and as long as collections are short. -/
theorem Course.sound_stations (hhost : settings.MakesNoLoops) {course : Course}
    (hvalues : ∀ v ∈ course.values, v.Sound) {around : List Frame} (hs : s.Sound)
    (hshort : ∀ p ∈ course.stations settings around s, p.state.IsShort) :
    (∀ p ∈ course.stations settings around s, p.state.Sound) ∧ (course.run settings s).Sound := by
  -- A scope is left with all that was done in it but its variables, and an isolated context with
  -- the frame that it was entered from.
  induction course generalizing around s with
  | done => exact ⟨List.forall_mem_singleton.mpr hs, hs⟩
  | act action rest ih =>
    obtain ⟨haction, hrest⟩ := List.forall_mem_append.mp hvalues
    obtain ⟨hbefore, hafter⟩ := List.forall_mem_append.mp hshort
    have hinside : ∀ p ∈ action.stations settings s, p.state.IsShort := fun p hp =>
      (List.forall_mem_cons.mp hbefore).2 ⟨p.around ++ around, p.state⟩
        (List.mem_map.mpr ⟨p, hp, rfl⟩)
    obtain ⟨hsound, hstep⟩ := ContextAction.sound_step hhost haction hs hinside
    obtain ⟨hstations, hend⟩ := ih hrest hstep hafter
    refine ⟨List.forall_mem_append.mpr ⟨?_, hstations⟩, hend⟩
    exact List.forall_mem_cons.mpr ⟨hs, List.forall_mem_map.mpr hsound⟩
  | inScope inside result rest ihInside ihRest =>
    obtain ⟨hvaluesInside, hvaluesRest⟩ := List.forall_mem_append.mp hvalues
    have hscope := inScope_eq (hosted result (inside.run settings)) s
    rw [stations] at hshort ⊢
    rw [run]
    split
    · rename_i hlimit
      rw [if_pos hlimit] at hshort hscope
      rw [hscope]
      obtain ⟨hstations, hend⟩ := ihRest hvaluesRest hs (List.forall_mem_cons.mp hshort).2
      exact ⟨List.forall_mem_cons.mpr ⟨hs, hstations⟩, hend⟩
    · rename_i hlimit
      rw [if_neg hlimit] at hshort hscope
      rw [hscope] at hshort ⊢
      obtain ⟨hbefore, hafter⟩ := List.forall_mem_append.mp hshort
      obtain ⟨hinside, hleft⟩ :=
        ihInside hvaluesInside hs.entered (List.forall_mem_cons.mp hbefore).2
      obtain ⟨hstations, hend⟩ := ihRest hvaluesRest hleft.popScope hafter
      refine ⟨List.forall_mem_append.mpr ⟨?_, hstations⟩, hend⟩
      exact List.forall_mem_cons.mpr ⟨hs, hinside⟩
  | isolated template inside rest ihInside ihRest =>
    obtain ⟨hvaluesInside, hvaluesRest⟩ := List.forall_mem_append.mp hvalues
    obtain ⟨hbefore, hafter⟩ := List.forall_mem_append.mp hshort
    have hframe : (s.withFrame (s.frame.isolated template)).Sound :=
      hs.of_frame (.isolated template) rfl
    obtain ⟨hinside, hleft⟩ :=
      ihInside hvaluesInside hframe (List.forall_mem_cons.mp hbefore).2
    have hback : (Render.isolated template (hosted (.ok ()) (inside.run settings)) s).2.Sound :=
      hleft.of_frame hs.frame rfl
    obtain ⟨hstations, hend⟩ := ihRest hvaluesRest hback hafter
    refine ⟨List.forall_mem_append.mpr ⟨?_, hstations⟩, hend⟩
    exact List.forall_mem_cons.mpr ⟨hs, hinside⟩

end

/-! ## States that come up -/

/-- All loops that are described within the value could be got hold of in an earlier state. -/
def Value.IsFrom (earlier : List RenderState) (v : Value) : Prop :=
  ∀ w ∈ v.parts, w.isLoop = true → ∃ t ∈ earlier, w ∈ t.reach

/-- The states that come up in renders and in what hosts do around them. Hosts bring positions and
descriptions of loops from states that came up earlier, as there is no other way to them, and any
other values. No collection that can be got hold of has more items than the largest integer says. -/
inductive RenderState.Arises : RenderState → Prop where
  /-- A render begins, with new registers or with earlier ones. -/
  | begins {s : RenderState} (earlier : List RenderState) :
      (∀ t ∈ earlier, Arises t) →
      (∀ e ∈ s.positions, ∃ t ∈ earlier, e ∈ t.positions) →
      (∀ w ∈ s.reach, w.isLoop = true → ∃ t ∈ earlier, w ∈ t.reach) →
      s.IsShort → Arises s
  /-- A host goes on, and renders, until some moment. -/
  | goesOn {s : RenderState} {settings : Settings} {course : Course} {p : Station}
      (earlier : List RenderState) :
      (∀ t ∈ earlier, Arises t) → Arises s → settings.MakesNoLoops →
      (∀ v ∈ course.values, v.IsFrom earlier) →
      (∀ q ∈ course.stations settings [] s, q.state.IsShort) →
      p ∈ course.stations settings [] s → Arises p.state

namespace RenderState

variable {s : RenderState}

/-- The loops of sound states are in turn, wherever they are brought to. -/
private theorem inTurn_of_earlier {earlier : List RenderState} (h : ∀ t ∈ earlier, t.Sound)
    {w : Value} (hw : w.isLoop = true → ∃ t ∈ earlier, w ∈ t.reach) : w.InTurn := by
  cases hloop : w.isLoop with
  | false => exact Value.inTurn_of_not_isLoop hloop
  | true =>
    obtain ⟨t, ht, hw⟩ := hw hloop
    exact (h t ht).reach w hw

/-- All states that arise are sound. -/
theorem Arises.sound (h : s.Arises) : s.Sound := by
  -- By induction on how the state came up: what was brought to it came from states that are sound.
  induction h with
  | @begins s earlier _ hpositions hloops _ ih =>
    have hreach : ∀ w ∈ s.reach, w.InTurn := fun w hw => inTurn_of_earlier ih (hloops w hw)
    obtain ⟨hframe, hregisters⟩ := forall_mem_reach.mp hreach
    refine ⟨hframe, hregisters, fun e he => ?_⟩
    obtain ⟨t, ht, he⟩ := hpositions e he
    exact (ih t ht).positions e he
  | goesOn earlier _ _ hhost hvalues hshort hp ih hs =>
    have hvalues : ∀ v ∈ _, Value.Sound v :=
      fun v hv w hw => inTurn_of_earlier ih (hvalues v hv w hw)
    exact (Course.sound_stations hhost hvalues hs hshort).1 _ hp

theorem Arises.isShort (h : s.Arises) : s.IsShort := by
  cases h with
  | begins _ _ _ _ hshort => exact hshort
  | goesOn _ _ _ _ _ hshort hp => exact hshort _ hp

/-- In every state that comes up, whatever was rendered and done before, loops stay in bounds. All
positions that are kept are template integers, and so are those that loops over any collection with
any offset and limit put there. The slices that they run over lie within the items, the integers of
a range are computed without saturating and lie in the range, and each turn finds a place in its
slice. All loops that expressions and pipelines can get hold of, through whatever holds them, count
down to zero. -/
theorem Arises.loopsInBounds (h : s.Arises) : s.LoopsInBounds :=
  h.sound.keepsBounds h.isShort

/-- A page is rendered twice. Its loop goes on from where it stopped, and around it assigns what
describes a loop inside it, which the second render can still get hold of. -/
theorem loopsInBounds_nested :
    let files := [("row", "\x7b\x7b row \x7d\x7d")]
    let settings : Settings := { registry := { Registry.standard with files := .ofFiles files } }
    let integers (first last : Int64) : Expression :=
      .range (.literal (.int first)) (.literal (.int last))
    let assign : Tag := .assign "kept" { source := .variable "forloop", filters := [] } none
    let header : LoopHeader := { item := "j", collection := integers 5 6, reversed := true }
    let inner : Tag := .loop "j-(5..6)" header (.mk [.tag assign] true) none none true
    let header : LoopHeader :=
      { item := "i"
        collection := integers 1 3
        limit := some (.literal (.int 2))
        offset := some .continue }
    let outer : Tag := .loop "i-(1..3)" header (.mk [.tag inner] true) none none true
    let call : PartialCall :=
      { template := .literal (.str "row"), object := some (integers 8 9), each := true }
    let page : Document := .mk [.tag outer, .tag (.renderPartial "row" call none)] false
    let course : Course := .act (.render page) (.act (.render page) .done)
    let s : RenderState := {}
    ∃ p ∈ course.stations settings [] s, p.state.Arises
      ∧ p.state.positions = [("i-(1..3)", 3), ("j-(5..6)", 2)]
      ∧ p.state.progress.output = "8989"
      ∧ (∃ w ∈ p.state.reach, w.isLoop = true ∧ w.CountsDown)
      ∧ p.state.LoopsInBounds := by
  intro files settings integers assign innerHeader inner outerHeader outer call page course s
  have hstart : s.Arises := .begins [] nofun nofun nofun (by decide)
  have hshort : ∀ q ∈ course.stations settings [] s, q.state.IsShort := by decide +kernel
  have hsome : ((course.stations settings [] s).any fun p =>
      p.state.positions == [("i-(1..3)", 3), ("j-(5..6)", 2)]
        && p.state.progress.output == "8989" && p.state.reach.any Value.isLoop) = true := by
    decide +kernel
  obtain ⟨p, hp, hstate⟩ := List.any_eq_true.mp hsome
  simp only [Bool.and_eq_true, beq_iff_eq] at hstate
  obtain ⟨⟨hpositions, houtput⟩, hreach⟩ := hstate
  obtain ⟨w, hw, hloop⟩ := List.any_eq_true.mp hreach
  have hhost : settings.MakesNoLoops :=
    ⟨Answers.none_makeNoLoops, Answers.none_areShort, Filter.standard_makesNoLoops⟩
  have hvalues : ∀ v ∈ course.values, v.IsFrom [] := List.forall_mem_nil _
  have harises : p.state.Arises :=
    .goesOn [] (List.forall_mem_nil _) hstart hhost hvalues hshort hp
  have hbounds := Arises.loopsInBounds harises
  exact ⟨p, hp, harises, hpositions, houtput, ⟨w, hw, hloop, hbounds.reach w hw⟩, hbounds⟩

end RenderState

end Stencil
