import Stencil.Proofs.Depth
import Stencil.Proofs.Positions
import Stencil.Proofs.Quiet
import Stencil.Proofs.Reach

/-!
# Sound loops

A loop starts from the position that another loop of its name left in the registers, and describes
itself to its body, where it can be assigned and outlive the loop. So that its arithmetic stays in
bounds depends on all that was done before. A state is sound if all positions are template integers
and all loops that can be got hold of are in one of their turns. Renders keep states sound, as long
as no collection has more items than the largest integer says.

What a step gives matters to the steps after it: a start that comes from a position is in bounds,
and a value that comes from a sound state is sound. So there is a rule for each step of a script,
which says what it gives, and the rule for sequences hands that on.

## Key definitions

- `RenderState.Sound`: all positions are in bounds, and all loops are in turn
- `RenderState.IsShort`: all collections in reach have few enough items
- `Script.Upholds`: a script keeps states sound while collections are short, and what it gives

## Key results

- `Script.Upholds.bind`: one step after the other
- `Script.Upholds.loopSlice`: what a loop runs over, and where it stops
- `Document.sound_stations`: the moments of a render
-/

namespace Stencil

open Render

/-! ## Sound states -/

/-- All loops that are described within the value are in one of their turns. -/
abbrev Value.Sound (v : Value) : Prop :=
  v.Throughout Value.InTurn

/-- All positions are integers of templates, and all loops that can be got hold of are in one of
their turns. -/
structure RenderState.Sound (s : RenderState) : Prop where
  frame : s.frame.Admits Value.Sound
  registers : Object.All Value.Sound s.progress.registers.values
  positions : ∀ e ∈ s.positions, (e.2 : Int) ≤ Decimal.maxWhole

/-- All collections that can be got hold of have few enough items. -/
def RenderState.IsShort (s : RenderState) : Prop :=
  ∀ w ∈ s.reach, w.IsShort

instance (s : RenderState) : Decidable s.IsShort :=
  inferInstanceAs (Decidable (∀ w ∈ s.reach, w.IsShort))

/-- The code of the host, in its objects and filters, makes no descriptions of loops, and its
objects give no collection that does not fit into memory. -/
structure Settings.MakesNoLoops (settings : Settings) : Prop where
  answers : settings.registry.answers.MakeNoLoops
  short : settings.registry.answers.AreShort
  filters : ∀ e ∈ settings.registry.filters, e.2.MakesNoLoops

namespace RenderState

variable {s t : RenderState}

/-- All loops in reach are in turn. -/
theorem Sound.reach (h : s.Sound) : ∀ w ∈ s.reach, w.InTurn :=
  forall_mem_reach.mpr ⟨h.frame, h.registers⟩

/-- Another frame with the same registers. -/
theorem Sound.of_frame (h : s.Sound) (hframe : t.frame.Admits Value.Sound)
    (hregisters : t.progress.registers = s.progress.registers) : t.Sound where
  frame := hframe
  registers := hregisters ▸ h.registers
  positions := by
    unfold RenderState.positions
    rw [hregisters]
    exact h.positions

/-- Soundness depends on the frame and the registers only. -/
theorem Sound.of_eq (h : s.Sound) (hframe : t.frame = s.frame)
    (hregisters : t.progress.registers = s.progress.registers) : t.Sound :=
  h.of_frame (hframe ▸ h.frame) hregisters

/-- Where the last loop of a name stopped, or where the first one starts. -/
theorem Sound.position_le (h : s.Sound) (name : String) :
    (((s.positions.get? name).getD 0 : Nat) : Int) ≤ Decimal.maxWhole := by
  cases hposition : s.positions.get? name with
  | none => decide
  | some position => exact h.positions _ (Assoc.mem_of_get?_eq_some hposition)

/-- A scope that is opened has no names in it. -/
theorem Sound.entered (h : s.Sound) : s.entered.Sound :=
  h.of_frame h.frame.push rfl

/-- A scope that is left takes its names along. -/
theorem Sound.popScope (h : s.Sound) : s.popScope.Sound :=
  h.of_frame h.frame.pop rfl

/-- Binding sound values keeps a state sound. -/
theorem Sound.bindAll (h : s.Sound) {entries : List (String × Value)}
    (hentries : ∀ e ∈ entries, e.2.Sound) : (Render.bindAll entries s).2.Sound :=
  h.of_frame (quiet_bindAll (U := Eq) (E := fun _ => True) hentries s h.frame).admits rfl

/-- Storing a sound value keeps a state sound. -/
theorem Sound.store (h : s.Sound) (name : String) {value : Value} (hv : value.Sound) :
    (Render.store name value s).2.Sound :=
  h.of_frame (h.frame.store name hv) rfl

/-- Assigning a sound value keeps a state sound, also where the charge for it is refused. -/
theorem Sound.assign (h : s.Sound) (name : String) {value : Value} (hv : value.Sound) :
    (Render.assign name value s).2.Sound := by
  have hcharged : (charge (·.chargeAssign value.storageCost) s).2.Sound := h.of_eq rfl rfl
  rw [assign_eq]
  cases hc : charge (·.chargeAssign value.storageCost) s with
  | mk r t =>
    rw [hc] at hcharged
    cases r with
    | ok a => exact hcharged.store name hv
    | error e => exact hcharged

/-- What is recorded of an error, and shown in its place, holds no values. -/
theorem Sound.rescue (h : s.Sound) (settings : Settings) (line : Option Nat) (blank : Bool)
    (e : Error) : (Render.rescue settings line blank e s).2.Sound := by
  cases hp : settings.propagates e with
  | true =>
    rw [rescue_of_propagates hp]
    exact h
  | false =>
    rw [rescue_of_not_propagates hp]
    split <;> exact h.of_eq rfl rfl

/-- A position within bounds keeps a state sound. -/
theorem Sound.setPosition (h : s.Sound) (name : String) {position : Nat}
    (hposition : (position : Int) ≤ Decimal.maxWhole) :
    (Render.setPosition name position s).2.Sound where
  frame := h.frame
  registers := h.registers
  positions := by
    let inBounds (n : Nat) : Prop := (n : Int) ≤ Decimal.maxWhole
    exact Assoc.forall_mem_put (P := inBounds) h.positions name hposition

/-- A register with a sound value keeps a state sound. -/
theorem Sound.setRegister (h : s.Sound) (register : String) {value : Value} (hv : value.Sound) :
    (count.setRegister register value s).2.Sound where
  frame := h.frame
  registers := h.registers.put register hv
  positions := h.positions

/-- A partial that is kept holds no values. -/
theorem Sound.loadPartial (h : s.Sound) (settings : Settings) (name : String) :
    (Render.loadPartial settings name s).2.Sound := by
  unfold Render.loadPartial
  split
  · exact h
  · split
    · -- Read for the first time and kept, or refused.
      exact ⟨h.frame, h.registers, h.positions⟩
    · exact h

end RenderState

/-! ## Values in sound states -/

section

variable {settings : Settings} {s : RenderState}

/-- All that can be seen in a sound state is sound. -/
theorem RenderState.Sound.view (hanswers : settings.registry.answers.MakeNoLoops) (h : s.Sound) :
    (settings.view s).All Value.Sound fun _ => True where
  find _ _ hv := h.frame.find? hv
  answers id name := .of_ok fun v hv w hw => by
    cases hloop : w.isLoop with
    | false => exact Value.inTurn_of_not_isLoop hloop
    | true =>
      exact h.reach w (List.mem_append_left _ (hanswers (settings.view s) id name v hv w hw hloop))

/-- Expressions give sound values in sound states. -/
theorem RenderState.Sound.evaluate (hanswers : settings.registry.answers.MakeNoLoops) (h : s.Sound)
    (e : Expression) : Meets Value.Sound (fun _ => True) (e.evaluate (settings.view s)) :=
  Hereditary.inTurn.evaluate (h.view hanswers) e

/-- Where all collections are short, so are those that expressions give. -/
theorem RenderState.IsShort.evaluate (hanswers : settings.registry.answers.AreShort) (h : s.IsShort)
    (e : Expression) :
    Meets (·.liquid.IsShort) (fun _ => True) (e.evaluate (settings.view s)) := by
  obtain ⟨hframe, -⟩ := RenderState.forall_mem_reach.mp h
  have hview : (settings.view s).All (·.Throughout Value.IsShort) fun _ => True :=
    ⟨fun _ _ hv => hframe.find? hv, fun id name => .of_ok (hanswers id name _)⟩
  refine (Hereditary.short.evaluate hview e).mono ?_ fun _ h => h
  exact fun v hv => (Hereditary.short.liquid_value hv).self

/-- Pipelines give sound values in sound states, if the host makes no loops. -/
theorem RenderState.Sound.pipeline (hhost : settings.MakesNoLoops) (h : s.Sound) (p : Pipeline) :
    Meets Value.Sound (fun _ => True)
      (p.evaluate settings.registry.filters (settings.view s)) := by
  refine Hereditary.inTurn.pipeline (h.view hhost.answers) ?_ p
  intro e he input args hinput hargs
  cases hrun : e.2.run (settings.view s) input args with
  | error e => trivial
  | ok v =>
    intro w hw
    cases hloop : w.isLoop with
    | false => exact Value.inTurn_of_not_isLoop hloop
    | true =>
      -- A filter can only have passed on a loop that was there.
      rcases hhost.filters e he (settings.view s) input args v hhost.answers hrun w hw hloop with
        hw | hw | hw
      · exact hinput w hw
      · obtain ⟨a, ha, hw⟩ := List.mem_flatMap.mp hw
        exact hargs.values a ha w hw
      · exact h.reach w (List.mem_append_left _ hw)

end

/-! ## Scripts -/

namespace Script

variable {settings : Settings} {b b' : Bool} {α β : Type} {P Q : α → Prop} {R : β → Prop}

/-- From a sound state the script gives what satisfies `Q`, if anything, and all its moments are
sound, provided that at each of them collections are short. -/
def Upholds (settings : Settings) (x : Script b α) (Q : α → Prop) : Prop :=
  ∀ around s, s.Sound → (∀ p ∈ x.stations settings around s, p.state.IsShort) →
    (∀ p ∈ x.stations settings around s, p.state.Sound)
      ∧ Meets Q (fun _ => True) (x.run settings s).1

/-- What holds at the moments of a script holds at its end. -/
theorem of_stations {x : Script b α} {I : RenderState → Prop} {around : List Frame}
    {s : RenderState} (h : ∀ p ∈ x.stations settings around s, I p.state) :
    I (x.run settings s).2 :=
  h _ (List.mem_of_getLast? (x.getLast?_stations around s))

namespace Upholds

/-! ### One step after the other -/

/-- What the first script gives satisfies `P`, and the second one starts from that. -/
theorem bind {x : Script b α} {f : α → Script b β} (hx : x.Upholds settings P)
    (hf : ∀ a, P a → (f a).Upholds settings R) : (x >>= f).Upholds settings R := by
  show (x.bind f).Upholds settings R
  intro around s hs hshort
  rw [stations] at hshort ⊢
  obtain ⟨hbefore, hafter⟩ := List.forall_mem_append.mp hshort
  obtain ⟨hsound, hresult⟩ := hx around s hs hbefore
  -- The second script starts where the first one ends, which is one of its moments.
  have ht : (x.run settings s).2.Sound := of_stations hsound
  rw [run]
  cases hr : x.run settings s with
  | mk r t =>
    rw [hr] at hafter ht hresult
    cases r with
    | error e =>
      rw [Attempt.bind_of_error hr]
      exact ⟨List.forall_mem_append.mpr ⟨hsound, List.forall_mem_nil _⟩, trivial⟩
    | ok a =>
      obtain ⟨hrest, hvalue⟩ := hf a hresult around t ht hafter
      rw [Attempt.bind_of_ok hr]
      exact ⟨List.forall_mem_append.mpr ⟨hsound, hrest⟩, hvalue⟩

/-- A script with no moments but its start and its end. -/
private theorem of_step {x : Script b α}
    (hx : ∀ around s, x.stations settings around s
      = [⟨around, s⟩, ⟨around, (x.run settings s).2⟩])
    (h : ∀ s, s.Sound → s.IsShort →
      (x.run settings s).2.Sound ∧ Meets Q (fun _ => True) (x.run settings s).1) :
    x.Upholds settings Q := by
  intro around s hs hshort
  rw [hx] at hshort ⊢
  obtain ⟨hend, hresult⟩ := h s hs (hshort ⟨around, s⟩ List.mem_cons_self)
  exact ⟨List.forall_mem_cons.mpr ⟨hs, List.forall_mem_singleton.mpr hend⟩, hresult⟩

/-- A step aside upholds what it upholds in every sound state where collections are short. -/
theorem aside {x : Render α} {hx : Aside x}
    (h : ∀ s, s.Sound → s.IsShort → (x s).2.Sound ∧ Meets Q (fun _ => True) (x s).1) :
    (Script.aside x hx : Script b α).Upholds settings Q :=
  of_step (fun _ _ => rfl) h

/-- A script that only gives a value. -/
theorem pure {a : α} (h : Q a) : (Pure.pure a : Script b α).Upholds settings Q :=
  aside fun _ hs _ => ⟨hs, h⟩

/-- A step aside of which nothing is known but that it touches nothing that matters. -/
theorem still {x : Render α} {hx : Aside x} (h : ∀ s, s.Sound → (x s).2.Sound) :
    (Script.aside x hx : Script b α).Upholds settings fun _ => True := by
  refine aside fun s hs _ => ⟨h s hs, ?_⟩
  cases (x s).1 <;> trivial

/-- The value of an expression is sound, and a collection that it stands for is short. -/
theorem evaluate (hhost : settings.MakesNoLoops) (e : Expression) :
    (Script.evaluate e : Script b Value).Upholds settings fun v => v.Sound ∧ v.liquid.IsShort := by
  refine of_step (fun _ _ => rfl) fun s hs hshort => ⟨hs, ?_⟩
  have hsound : Meets Value.Sound (fun _ => True) (e.evaluate (settings.view s)) :=
    hs.evaluate hhost.answers e
  have hitems : Meets (·.liquid.IsShort) (fun _ => True) (e.evaluate (settings.view s)) :=
    hshort.evaluate hhost.short e
  -- Two facts about one evaluation, so they are read off its result together.
  show Meets _ _ (e.evaluate (settings.view s))
  cases hv : e.evaluate (settings.view s) with
  | ok v =>
    rw [hv] at hsound hitems
    exact ⟨hsound, hitems⟩
  | error e => trivial

/-- The value of a pipeline is sound. -/
theorem pipeline (hhost : settings.MakesNoLoops) (p : Pipeline) :
    (Script.pipeline p : Script b Value).Upholds settings Value.Sound :=
  of_step (fun _ _ => rfl) fun _ hs _ => ⟨hs, hs.pipeline hhost p⟩

/-- A condition changes nothing. -/
theorem condition (hhost : settings.MakesNoLoops) (c : Condition) :
    (Script.condition c : Script b Bool).Upholds settings fun _ => True :=
  of_step (fun _ _ => rfl) fun _ hs _ =>
    ⟨hs, Hereditary.inTurn.condition (hs.view hhost.answers) c⟩

/-- Charging the score changes only the budget. -/
theorem score (nodes : Nat) :
    (Script.score nodes : Script b Unit).Upholds settings fun _ => True := by
  refine of_step (fun _ _ => rfl) fun s hs _ => ⟨hs.of_eq rfl rfl, ?_⟩
  exact (meets_charge (.score nodes) s).mono (fun _ h => h) fun _ _ => trivial

/-- Writing a text changes only the budget and the output. -/
theorem emit (text : String) :
    (Script.emit text : Script b Unit).Upholds settings fun _ => True := by
  refine of_step (fun _ _ => rfl) fun s hs _ => ⟨hs.of_eq rfl rfl, ?_⟩
  exact (meets_emit text s).mono (fun _ h => h) fun _ _ => trivial

/-- Names are bound to sound values. -/
theorem bindAll {entries : List (String × Value)} (h : ∀ e ∈ entries, e.2.Sound) :
    (Script.bindAll entries).Upholds settings fun _ => True :=
  of_step (fun _ _ => rfl) fun _ hs _ => ⟨hs.bindAll h, trivial⟩

/-- Whatever a step gives satisfies nothing in particular. -/
private theorem meets_trivial (r : Except Error α) : Meets (fun _ => True) (fun _ => True) r := by
  cases r <;> trivial

/-- A name is assigned a sound value. There is a moment between the charge and the storing. -/
theorem assign (name : String) {value : Value} (hv : value.Sound) :
    (Script.assign name value : Script b Unit).Upholds settings fun _ => True := by
  intro around s hs _
  have hcharged : (charge (·.chargeAssign value.storageCost) s).2.Sound := hs.of_eq rfl rfl
  exact ⟨Station.forall_mem_inside.mpr
    ⟨hs, List.forall_mem_singleton.mpr hcharged, hs.assign name hv⟩, meets_trivial _⟩

/-! ### Steps inside something -/

/-- What stands around other steps keeps states sound if it does so where it is entered and where it
is left. -/
private theorem around {x : Script b' β} {y : Script b α} (hx : x.Upholds settings R)
    {enter : RenderState → RenderState} {frames : List Frame → RenderState → List Frame}
    (hy : ∀ around s, y.stations settings around s
      = ⟨around, s⟩ :: x.stations settings (frames around s) (enter s)
        ++ [⟨around, (y.run settings s).2⟩])
    (henter : ∀ s, s.Sound → (enter s).Sound)
    (hleave : ∀ s, s.Sound → (x.run settings (enter s)).2.Sound → (y.run settings s).2.Sound) :
    y.Upholds settings fun _ => True := by
  intro around s hs hshort
  rw [hy] at hshort ⊢
  -- The moments inside are moments of the whole, so collections are short at them.
  obtain ⟨-, hinside, -⟩ := Station.forall_mem_inside.mp hshort
  obtain ⟨hsound, -⟩ := hx _ _ (henter s hs) hinside
  exact ⟨Station.forall_mem_inside.mpr ⟨hs, hsound, hleave s hs (of_stations hsound)⟩,
    meets_trivial _⟩

/-- What is diverted upholds what it upholds, with another output. -/
theorem diverted {x : Script b Unit} (hx : x.Upholds settings fun _ => True) :
    (Script.diverted x).Upholds settings fun _ => True :=
  hx.around (fun _ _ => rfl) (fun _ hs => hs.of_eq rfl rfl) fun _ _ ht => ht.of_eq rfl rfl

/-- The name of the template is no value. -/
theorem inTemplate (name : String) {x : Script b α} (hx : x.Upholds settings fun _ => True) :
    (Script.inTemplate name x).Upholds settings fun _ => True := by
  have hframe {s : RenderState} (hs : s.Sound) (template : Option String) :
      (s.withTemplate template).Sound :=
    hs.of_frame ⟨hs.frame.inner, hs.frame.outer, hs.frame.environments, hs.frame.loops⟩ rfl
  exact hx.around (fun _ _ => rfl) (fun _ hs => hframe hs _) fun _ _ ht => hframe ht _

/-- An isolated step shares the registers with its surroundings, and its frame has nothing in it. -/
theorem isolated (template : Option String) {x : Script false α}
    (hx : x.Upholds settings fun _ => True) :
    (Script.isolated template x : Script b α).Upholds settings fun _ => True :=
  hx.around (fun _ _ => rfl) (fun _ hs => hs.of_frame (.isolated template) rfl)
    fun _ hs ht => ht.of_frame hs.frame rfl

/-- The loop that is entered is in turn, and the loops around it are in turn again when it is left.
-/
theorem inLoop {loop : Value} (hloop : loop.Sound) {x : Script b α}
    (hx : x.Upholds settings fun _ => True) :
    (Script.inLoop loop x).Upholds settings fun _ => True := by
  refine hx.around (fun _ _ => rfl) (fun s hs => ?_) fun s hs ht => ?_
  · exact hs.of_frame
      (hs.frame.withLoops (List.forall_mem_cons.mpr ⟨hloop, hs.frame.loops⟩)) rfl
  · exact ht.of_frame (ht.frame.withLoops hs.frame.loops) rfl

/-- A scope is entered without names and left without them, unless it is refused. -/
theorem inScope {x : Script true α} (hx : x.Upholds settings fun _ => True) :
    (Script.inScope x : Script b α).Upholds settings fun _ => True := by
  intro around s hs hshort
  have hend := inScope_eq (x.run settings) s
  rw [stations] at hshort ⊢
  split
  · -- A scope that is refused has no moments inside.
    exact ⟨List.forall_mem_singleton.mpr hs, meets_trivial _⟩
  · rename_i henter
    rw [if_neg henter] at hshort hend
    obtain ⟨-, hinside, -⟩ := Station.forall_mem_inside.mp hshort
    obtain ⟨hsound, -⟩ := hx around s.entered hs.entered hinside
    have ht : (x.run settings s.entered).2.Sound := of_stations hsound
    refine ⟨Station.forall_mem_inside.mpr ⟨hs, hsound, ?_⟩, meets_trivial _⟩
    rw [hend]
    exact ht.popScope

/-- What is captured is stored as a text. -/
theorem capture (name : String) {x : Script b Unit} (hx : x.Upholds settings fun _ => True) :
    (Script.capture name x).Upholds settings fun _ => True := by
  intro around s hs hshort
  rw [stations, List.append_cons, List.forall_mem_append] at hshort
  obtain ⟨-, hinside, -⟩ := Station.forall_mem_inside.mp hshort.1
  obtain ⟨hsound, -⟩ := hx around (s.beginCapture.withOutput "") (hs.of_eq rfl rfl) hinside
  -- The state at the end of the inside is one of its moments.
  have ht : (x.run settings (s.beginCapture.withOutput "")).2.Sound := of_stations hsound
  have hcaptured : (captured (x.run settings) s).2.Sound := ht.of_eq rfl rfl
  have hstored : ((Script.capture name x).run settings s).2.Sound := by
    rw [run]
    cases h : captured (x.run settings) s with
    | mk r u =>
      rw [h] at hcaptured
      cases r with
      | error e =>
        rw [Attempt.bind_of_error h]
        exact hcaptured
      | ok text =>
        -- What is stored is a text, which describes no loop.
        rw [Attempt.bind_of_ok h]
        exact hcaptured.store name (Hereditary.inTurn.atom rfl)
  rw [stations, List.append_cons]
  exact ⟨List.forall_mem_append.mpr ⟨Station.forall_mem_inside.mpr ⟨hs, hsound, hcaptured⟩,
    List.forall_mem_singleton.mpr hstored⟩, meets_trivial _⟩

/-- What comes of an error leaves a state sound. -/
theorem rescuing (line : Option Nat) (blank : Bool) {x : Script b Unit}
    (hx : x.Upholds settings fun _ => True) :
    (Script.rescuing line blank x).Upholds settings fun _ => True := by
  intro around s hs hshort
  -- The states of the inner run come first, then the one after the error was dealt with.
  obtain ⟨hbefore, -⟩ := List.forall_mem_append.mp hshort
  obtain ⟨hsound, -⟩ := hx around s hs hbefore
  have ht : (x.run settings s).2.Sound := of_stations hsound
  refine ⟨List.forall_mem_append.mpr ⟨hsound, List.forall_mem_singleton.mpr ?_⟩, meets_trivial _⟩
  show (Render.rescuing settings line blank (x.run settings) s).2.Sound
  cases h : x.run settings s with
  | mk r t =>
    rw [h] at ht
    cases r with
    | ok a =>
      rw [rescuing_of_ok h]
      exact ht
    | error e =>
      rw [rescuing_of_error h]
      exact ht.rescue settings line blank e

/-! ### Loops -/

/-- What a limit or an offset says is no value of the state. -/
theorem loopAttribute (hhost : settings.MakesNoLoops) (e : Expression) :
    (Script.loopAttribute e : Script b _).Upholds settings fun _ => True := by
  refine .bind (.evaluate hhost e) fun v _ => ?_
  split
  · exact .pure trivial
  · exact .bind (.still fun _ hs => hs) fun _ _ => .pure trivial

/-- A loop starts from an integer of templates: from a position, or from one that was given. -/
theorem loopStart (hhost : settings.MakesNoLoops) (name : String) (offset : Option LoopOffset) :
    (Script.loopStart name offset : Script b Nat).Upholds settings
      fun start => (start : Int) ≤ Decimal.maxWhole := by
  -- Where to start is 0, where the last loop stopped, or a number that was clamped.
  cases offset with
  | none => exact .pure (by decide)
  | some offset =>
    cases offset with
    | «continue» => exact .aside fun s hs _ => ⟨hs, hs.position_le name⟩
    | «at» e =>
      refine .bind (.loopAttribute hhost e) fun n _ => .pure ?_
      cases n with
      | none => decide
      | some n => exact Decimal.toNat_toInt_le n

/-- Where a loop stops is checked against its start by `Slice.add_length_le`. -/
theorem loopStop (hhost : settings.MakesNoLoops) (start : Nat) (limit : Option Expression) :
    (Script.loopStop start limit : Script b _).Upholds settings fun _ => True := by
  cases limit with
  | none => exact .pure trivial
  | some e => exact .bind (.loopAttribute hhost e) fun _ _ => .pure trivial

/-- A loop runs over sound values, and where it stops is an integer of templates. -/
theorem loopSlice (hhost : settings.MakesNoLoops) (name : String) (header : LoopHeader) :
    (Script.loopSlice name header : Script b Slice).Upholds settings
      fun slice => ∀ index, (slice.get index).Sound := by
  refine .bind (.evaluate hhost header.collection) fun v hv => ?_
  refine .bind (.loopStart hhost name header.offset) fun start hstart => ?_
  refine .bind (.loopStop hhost start header.limit) fun stop _ => ?_
  -- The collection is short, so the position that is left for the next loop is in bounds.
  have hposition := Slice.add_length_le stop hstart hv.2
  refine .bind (.still fun _ hs => hs.setPosition name hposition) fun _ _ => .pure fun index => ?_
  exact Hereditary.inTurn.get_of start stop index (Hereditary.inTurn.liquid_value hv.1)

/-- Numbered steps have the numbers below their count only. -/
theorem steps {step : Nat → Script b Bool} {length : Nat}
    (hstep : ∀ index, index < length → (step index).Upholds settings fun _ => True)
    {remaining : Nat} (hremaining : remaining ≤ length) :
    (Script.steps step length remaining).Upholds settings fun _ => True := by
  induction remaining with
  | zero => exact .pure trivial
  | succ remaining ih =>
    -- The next step has the number of those that were taken, and at least one is left.
    refine .bind (hstep _ (by omega)) fun more _ => ?_
    cases more with
    | true => exact ih (by omega)
    | false => exact .pure trivial

/-- A loop that is described in the turn at an index. -/
theorem beginIteration (name : String) {length index : Nat} (hindex : index < length)
    {parent : Value} (hparent : parent.Sound) :
    (Script.aside (beginIteration name length index parent) (.beginIteration ..)
      : Script b Value).Upholds settings Value.Sound :=
  .aside fun _ hs _ => ⟨hs.of_eq rfl rfl, Value.throughout_loop_iff.mpr ⟨hindex, hparent⟩⟩

/-- A loop over sound values, with a body that upholds soundness in each turn. -/
theorem loop (name : String) (header : LoopHeader) {slice : Slice}
    (hslice : ∀ index, (slice.get index).Sound) {body : Script true Unit}
    (hbody : body.Upholds settings fun _ => True) :
    (Script.loop name header slice body : Script b Unit).Upholds settings fun _ => True := by
  -- A turn is described by its index, which is below the length: this is where `InTurn` comes from.
  have hturn {parent : Value} (hparent : parent.Sound) {index : Nat}
      (hindex : index < slice.length) :
      (Script.beginTurn name header slice parent index).Upholds settings Value.Sound := by
    refine .bind (.beginIteration name hindex hparent) fun loop hloop => ?_
    refine .bind (.bindAll (List.forall_mem_singleton.mpr (hslice _))) fun _ _ => ?_
    exact .bind (.bindAll (List.forall_mem_singleton.mpr hloop)) fun _ _ => .pure hloop
  -- After the body an interrupt may be taken up, which is no value.
  have hiteration {parent : Value} (hparent : parent.Sound) (index : Nat)
      (hindex : index < slice.length) :
      (Script.iteration name header slice parent body index).Upholds settings fun _ => True := by
    refine .bind (hturn hparent hindex) fun loop hloop => .bind (.inLoop hloop hbody) fun _ _ => ?_
    refine .bind (.still fun s hs => ?_) fun _ _ => .pure trivial
    exact hs.of_frame ⟨hs.frame.inner, hs.frame.outer, hs.frame.environments, hs.frame.loops⟩ rfl
  -- The loop around this one is running, so it can be got hold of, and is in turn.
  have hparent : (Script.aside (fun s => (.ok (s.frame.loops.head?.getD .nil), s))
      ⟨fun _ _ _ _ => rfl, fun _ => rfl⟩ : Script b Value).Upholds settings Value.Sound := by
    refine .aside fun s hs _ => ⟨hs, ?_⟩
    exact Hereditary.inTurn.getD fun v hv => hs.frame.loops v (List.mem_of_head? hv)
  exact .bind hparent fun parent hparent => .inScope (.steps (hiteration hparent) (Nat.le_refl _))

/-! ### Partials -/

/-- The values of attributes are sound, by induction on the attributes. -/
theorem evaluateAll (hhost : settings.MakesNoLoops) : ∀ entries : List (String × Expression),
    (Script.evaluateAll entries : Script b _).Upholds settings
      fun bindings => ∀ e ∈ bindings, e.2.Sound
  | [] => .pure (List.forall_mem_nil _)
  | _ :: entries => .bind (.evaluate hhost _) fun _ hv =>
    .bind (evaluateAll hhost entries) fun _ hrest =>
    .pure (List.forall_mem_cons.mpr ⟨hv.1, hrest⟩)

/-- An output is evaluated and written. -/
theorem write (hhost : settings.MakesNoLoops) (p : Pipeline) :
    (Script.write p : Script b Unit).Upholds settings fun _ => True :=
  .bind (.pipeline hhost p) fun _ _ => .emit _

/-- The name of a partial is a text, or an error. -/
theorem partialName (hhost : settings.MakesNoLoops) (template : Expression) :
    (Script.partialName settings template : Script b _).Upholds settings fun _ => True := by
  refine .bind (.evaluate hhost template) fun v _ => ?_
  split
  · exact .pure trivial
  · exact .still fun _ hs => hs

/-- A partial is read, or taken from the registers. -/
theorem loadPartial (name : String) :
    (Script.aside (loadPartial settings name) (.loadPartial ..) : Script b _).Upholds settings
      fun _ => True :=
  .still fun _ hs => hs.loadPartial settings name

/-- A tag that is disabled is refused. -/
theorem checkEnabled (tag : String) :
    (Script.aside (checkEnabled settings tag) (.checkEnabled ..) : Script b _).Upholds settings
      fun _ => True := by
  refine .still fun s hs => ?_
  unfold Render.checkEnabled
  split <;> exact hs

/-- The object of an include is the value of its expression, or a variable of the partial's name. -/
theorem includedObject (hhost : settings.MakesNoLoops) (call : PartialCall) (name : String) :
    (Script.includedObject settings call name : Script b _).Upholds settings Value.Sound := by
  unfold Script.includedObject
  cases call.object with
  | some e =>
    exact .bind (.evaluate hhost e) fun v hv => .pure (Hereditary.inTurn.liquid_value hv.1)
  | none =>
    refine .aside fun s hs _ => ⟨hs, ?_⟩
    exact Hereditary.inTurn.getD fun _ hv => hs.frame.find? hv

/-- A partial is rendered for each item, by induction on the items. -/
theorem eachItem (target : String) {render : Script true Unit}
    (hrender : render.Upholds settings fun _ => True) : ∀ {items : List Value},
    (∀ v ∈ items, v.Sound) →
    (Script.eachItem target render items).Upholds settings fun _ => True
  | [], _ => .pure trivial
  | _ :: _, h => .bind (.bindAll (List.forall_mem_singleton.mpr (List.forall_mem_cons.mp h).1))
    fun _ _ => .bind hrender fun _ _ => eachItem target hrender (List.forall_mem_cons.mp h).2

/-- Attributes are bound one after the other, by induction on them. -/
theorem bindAttributes (hhost : settings.MakesNoLoops) : ∀ attributes : List (String × Expression),
    (Script.bindAttributes attributes).Upholds settings fun _ => True
  | [] => .pure trivial
  | _ :: attributes => .bind (.evaluate hhost _) fun _ hv =>
    .bind (.bindAll (List.forall_mem_singleton.mpr hv.1)) fun _ _ => bindAttributes hhost attributes

/-- What is passed to a partial is sound: a binding, or the members of a collection. -/
theorem passedObject (hhost : settings.MakesNoLoops) (target : String) (call : PartialCall) :
    (Script.passedObject target call : Script b _).Upholds settings (Passed.All Value.Sound) := by
  unfold Script.passedObject
  cases call.object with
  | none => exact .pure (List.forall_mem_nil _)
  | some e =>
    refine .bind (.evaluate hhost e) fun v hv => ?_
    have hobject : ∀ e ∈ [(target, v.liquid)], e.2.Sound :=
      List.forall_mem_singleton.mpr (Hereditary.inTurn.liquid_value hv.1)
    dsimp only
    split
    · split
      · -- A collection is passed item by item, anything else as a whole unless it is nil.
        rename_i members hm
        exact .pure fun index =>
          Hereditary.inTurn.get_all? index (Hereditary.inTurn.liquid_value hv.1) hm
      · exact .pure hobject
    · refine .pure ?_
      show ∀ e ∈ (if v.liquid.isNil then [] else [(target, v.liquid)]), e.2.Sound
      split
      · exact List.forall_mem_nil _
      · exact hobject

/-- A member of a collection comes with a description of its turn. -/
theorem memberBindings (name target : String) {members : Slice}
    (hmembers : ∀ index, (members.get index).Sound) {index : Nat}
    (hindex : index < members.length) :
    (Script.memberBindings name target members index : Script b _).Upholds settings
      fun bindings => ∀ e ∈ bindings, e.2.Sound := by
  refine .bind (.beginIteration name hindex (Hereditary.inTurn.atom rfl)) fun loop hloop => ?_
  exact .pure (List.forall_mem_cons.mpr ⟨hmembers index, List.forall_mem_singleton.mpr hloop⟩)

/-- A counter is a register with an integer in it. -/
theorem count (register : String) :
    (Script.count register : Script b Unit).Upholds settings fun _ => True :=
  .bind (.still fun _ hs => hs) fun _ _ =>
    .bind (.still fun _ hs => hs.setRegister register (Hereditary.inTurn.atom rfl)) fun _ _ =>
      .emit _

section

variable {partials : OfPartials} (hhost : settings.MakesNoLoops)
  (hcalls : ∀ document, (partials document).Upholds settings fun _ => True)
include hhost hcalls

/-- A partial that is included sees what is around it. -/
theorem includePartial (call : PartialCall) :
    (Script.includePartial settings partials call : Script b _).Upholds settings
      fun _ => True := by
  refine .bind (.checkEnabled "include") fun _ _ => ?_
  refine .bind (.partialName hhost call.template) fun name _ => ?_
  refine .bind (.loadPartial name) fun document _ => ?_
  refine .bind (.includedObject hhost call name) fun object hobject => ?_
  -- The items of an array are as sound as the array, and so is a value by itself.
  have hitems : ∀ v ∈ includedItems object, v.Sound := by
    unfold includedItems
    split
    · exact Hereditary.inTurn.item hobject
    · exact List.forall_mem_singleton.mpr hobject
  exact .inTemplate name (.inScope (.bind (.bindAttributes hhost call.attributes) fun _ _ =>
    .eachItem _ (hcalls document) hitems))

omit hhost in
/-- A partial that is rendered sees its bindings only. -/
theorem renderOnce (name : String) {attributes : List (String × Value)}
    (hattributes : ∀ e ∈ attributes, e.2.Sound) {bindings : Script b (List (String × Value))}
    (hbindings : bindings.Upholds settings fun bindings => ∀ e ∈ bindings, e.2.Sound) :
    (Script.renderOnce settings partials name attributes bindings).Upholds settings
      fun _ => True := by
  refine .bind (.loadPartial name) fun document _ => .bind hbindings fun bindings hb => ?_
  exact .isolated _ (.inScope (.bind (.bindAll (List.forall_mem_append.mpr ⟨hattributes, hb⟩))
    fun _ _ => hcalls document))

/-- A partial is rendered once, or for each member of a collection. -/
theorem renderPartial (name : String) (call : PartialCall) :
    (Script.renderPartial settings partials name call : Script b _).Upholds settings
      fun _ => True := by
  refine .bind (.evaluateAll hhost call.attributes) fun attributes hattributes => ?_
  refine .bind (.passedObject hhost (call.objectName name) call) fun passed hpassed => ?_
  cases passed with
  | once bindings => exact .renderOnce hcalls name hattributes (.pure hpassed)
  | each members =>
    refine .steps (fun index hindex => ?_) (Nat.le_refl _)
    exact .bind (.renderOnce hcalls name hattributes (.memberBindings name _ hpassed hindex))
      fun _ _ => .pure trivial

end

end Upholds

end Script

/-! ## Nodes -/

section

open Script

/-- What the scripts of bodies rely on to keep states sound. -/
structure Script.Grounded (settings : Settings) (partials : OfPartials) : Prop where
  host : settings.MakesNoLoops
  calls : ∀ document, (partials document).Upholds settings fun _ => True

variable {settings : Settings} {partials : OfPartials}

mutual

/-- The script of a body: its score, and its nodes. -/
theorem Body.upholds_script (h : Script.Grounded settings partials) {b : Bool} :
    ∀ body : Body,
    (Body.script settings partials body : Script b Unit).Upholds settings fun _ => True
  | .mk nodes _ => .bind (.score _) fun _ _ => Node.upholds_scriptAll h nodes

/-- The nodes of a body, until one of them ends it. -/
theorem Node.upholds_scriptAll (h : Script.Grounded settings partials) {b : Bool} :
    ∀ nodes : List Node,
    (Node.scriptAll settings partials nodes : Script b Unit).Upholds settings fun _ => True
  | [] => .pure trivial
  | node :: nodes => by
    refine .bind (Node.upholds_script h node) fun more _ => ?_
    cases more with
    | true => exact Node.upholds_scriptAll h nodes
    | false => exact .pure trivial

/-- The script of a node. The errors of outputs and tags are dealt with there. -/
theorem Node.upholds_script (h : Script.Grounded settings partials) {b : Bool} :
    ∀ node : Node,
    (Node.script settings partials node : Script b Bool).Upholds settings fun _ => True
  | .text _ => .bind (.emit _) fun _ _ => .pure trivial
  | .output p => .bind (.rescuing _ _ (.write h.host p)) fun _ _ => .pure trivial
  | .tag tag => .bind (.rescuing _ _ (Tag.upholds_script h tag)) fun _ _ =>
    .bind (.still fun _ hs => hs) fun _ _ => .pure trivial

/-- The first branch whose condition holds. -/
theorem Branch.upholds_scriptFirst (h : Script.Grounded settings partials) {b : Bool}
    (negated : Bool) : ∀ branches : List Branch,
    (Branch.scriptFirst settings partials negated branches : Script b Unit).Upholds settings
      fun _ => True
  | [] => .pure trivial
  | .mk c body :: branches => by
    refine .bind (.condition h.host c) fun holds _ => ?_
    split
    · exact Body.upholds_script h body
    · exact Branch.upholds_scriptFirst h false branches

/-- The arms of a choice, of which several may match. -/
theorem Arm.upholds_scriptAll (h : Script.Grounded settings partials) {b : Bool}
    (matched : Bool) : ∀ arms : List Arm,
    (Arm.scriptAll settings partials matched arms : Script b Unit).Upholds settings fun _ => True
  | [] => .pure trivial
  | .when c body :: arms => by
    refine .bind (.condition h.host c) fun holds _ => ?_
    cases holds with
    | true => exact .bind (Body.upholds_script h body) fun _ _ => Arm.upholds_scriptAll h true arms
    | false => exact Arm.upholds_scriptAll h matched arms
  | .otherwise body :: arms => by
    cases matched with
    | true => exact Arm.upholds_scriptAll h true arms
    | false =>
      exact .bind (Body.upholds_script h body) fun _ _ => Arm.upholds_scriptAll h false arms

/-- Sections, each in a scope of its own. -/
theorem Body.upholds_scriptSections (h : Script.Grounded settings partials) {b : Bool}
    (index : Nat) : ∀ bodies : List Body,
    (Body.scriptSections settings partials index bodies : Script b Unit).Upholds settings
      fun _ => True
  | [] => .pure trivial
  | body :: bodies => .bind (.emit _) fun _ _ =>
    .bind (.inScope (Body.upholds_script h body)) fun _ _ =>
      Body.upholds_scriptSections h (index + 1) bodies

/-- A body that may be missing. -/
theorem Body.upholds_scriptIfAny (h : Script.Grounded settings partials) {b : Bool} :
    ∀ body : Option Body,
    (Body.scriptIfAny settings partials body : Script b Unit).Upholds settings fun _ => True
  | none => .pure trivial
  | some body => Body.upholds_script h body

/-- The script of a tag, kind by kind. -/
theorem Tag.upholds_script (h : Script.Grounded settings partials) {b : Bool} :
    ∀ tag : Tag,
    (Tag.script settings partials tag : Script b Unit).Upholds settings fun _ => True
  | .conditional _ negated branches _ _ => Branch.upholds_scriptFirst h negated branches
  | .choice arms _ _ => Arm.upholds_scriptAll h false arms
  | .loop name header body otherwise _ _ => by
    refine .bind (.loopSlice h.host name header) fun slice hslice => ?_
    split
    · exact Body.upholds_scriptIfAny h otherwise
    · exact .loop name header hslice (Body.upholds_script h body)
  | .interrupt _ _ => .still fun _ hs =>
    hs.of_frame ⟨hs.frame.inner, hs.frame.outer, hs.frame.environments, hs.frame.loops⟩ rfl
  | .assign target source _ => .bind (.pipeline h.host source) fun _ hv => .assign target hv
  | .capture target body _ => .capture target (Body.upholds_script h body)
  | .comment | .inlineComment => .pure trivial
  | .raw _ => .emit _
  | .echo source => .write h.host source
  | .lines body _ => Body.upholds_script h body
  | .includePartial call _ => .includePartial h.host h.calls call
  | .renderPartial name call _ => .renderPartial h.host h.calls name call
  | .transform _ _ body => .bind (.diverted (Body.upholds_script h body)) fun _ _ => .emit _
  | .sections _ bodies _ => Body.upholds_scriptSections h 0 bodies
  | .counter _ register => .count register

end

end

namespace Document

variable {settings : Settings} (hhost : settings.MakesNoLoops)
include hhost

/-- By induction on the levels that are left for partials. -/
theorem upholds_scriptWithin (levels : Nat) {b : Bool} (document : Document) :
    (scriptWithin settings levels document : Script b Unit).Upholds settings fun _ => True := by
  induction levels generalizing b document with
  | zero => exact Body.upholds_script ⟨hhost, fun _ => .still fun _ hs => hs⟩ document
  | succ levels ih => exact Body.upholds_script ⟨hhost, ih⟩ document

/-- The moments of a render from a sound state are sound, as long as collections are short. -/
theorem sound_stations (document : Document) {s : RenderState} (hs : s.Sound)
    (hshort : ∀ p ∈ document.stations settings s, p.state.IsShort) :
    ∀ p ∈ document.stations settings s, p.state.Sound :=
  (upholds_scriptWithin hhost _ document [] s hs hshort).1

end Document

end Stencil
