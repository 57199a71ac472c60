import Stencil.Proofs.Caching

/-!
# What hosts do in contexts

A host loads and renders in a context, binds names and charges, opens scopes, and has isolated
contexts that share the registers. Whatever it does, and at whatever moment of a render, a partial
that is loaded is what reading it gives, and what was kept is never replaced or lost.

## Key definitions

- `ContextAction`, `Course`: what a host does in a context
- `Course.run`, `Course.stations`: where that leads, and the moments on the way

## Key results

- `Course.leads_stations`: at the moments of a course more and more partials are kept
- `Course.loadPartial_stations`: what loading gives at any of these moments
-/

namespace Stencil

open Render

/-! ## Courses -/

/-- One thing that a host does in a context. -/
inductive ContextAction where
  | load (name : String)
  | render (document : Document)
  | bind (name : String) (value : Value)
  | assign (name : String) (value : Value)
  | emit (text : String)
  | rescue (line : Option Nat) (blank : Bool) (e : Error)
  | interrupt (i : Interrupt)
  | takeInterrupt
  | register (name : String) (value : Value)
  /-- Changes the ceilings and the counters in any way. -/
  | setBudget (budget : Budget)

namespace ContextAction

/-- The step that it takes. -/
def step (settings : Settings) : ContextAction → Render Unit
  | load name => do let _ ← loadPartial settings name
  | render document => document.render settings
  | bind name value => bindName name value
  | assign name value => Render.assign name value
  | emit text => Render.emit text
  | rescue line blank e => Render.rescue settings line blank e
  | interrupt i => Render.interrupt i
  | takeInterrupt => do let _ ← Render.takeInterrupt
  | register name value => count.setRegister name value
  | setBudget budget => Attempt.modify fun s => { s with progress.budget := budget }

/-- The moments of a render. -/
def stations (settings : Settings) : ContextAction → RenderState → List Station
  | render document, s => document.stations settings s
  | _, _ => []

end ContextAction

/-- What a host does in a context, one thing after the other. Left out are what only looks at the
context, and exchanging what it was made with: the options of the render, those that partials are
read with, and the registers as a whole, kept partials included. -/
inductive Course where
  | done
  | act (action : ContextAction) (rest : Course)
  /-- Goes on in a scope of its own, which may be left with an error. -/
  | inScope (inside : Course) (result : Except Error Unit) (rest : Course)
  /-- Goes on in an isolated context. -/
  | isolated (template : Option String) (inside rest : Course)

/-- What is done by a host, seen as a step. -/
def hosted (result : Except Error Unit) (run : RenderState → RenderState) : Render Unit :=
  fun s => (result, run s)

namespace Course

/-- The context at the end. -/
def run (settings : Settings) : Course → RenderState → RenderState
  | done, s => s
  | act action rest, s => rest.run settings (action.step settings s).2
  | inScope inside result rest, s =>
    rest.run settings (Render.inScope (hosted result (inside.run settings)) s).2
  | isolated template inside rest, s =>
    rest.run settings (Render.isolated template (hosted (.ok ()) (inside.run settings)) s).2

/-- The moments of a course that starts in a context, those of its renders included. -/
def stations (settings : Settings) : Course → List Frame → RenderState → List Station
  | done, around, s => [⟨around, s⟩]
  | act action rest, around, s =>
    ⟨around, s⟩ :: (action.stations settings s).map (fun p => ⟨p.around ++ around, p.state⟩)
      ++ rest.stations settings around (action.step settings s).2
  | inScope inside result rest, around, s =>
    if exceeds (s.progress.budget.depth + 1) s.progress.budget.depthCeiling then
      ⟨around, s⟩ :: rest.stations settings around s
    else
      ⟨around, s⟩ :: inside.stations settings around s.entered
        ++ rest.stations settings around
          (Render.inScope (hosted result (inside.run settings)) s).2
  | isolated template inside rest, around, s =>
    ⟨around, s⟩ ::
        inside.stations settings (s.frame :: around) (s.withFrame (s.frame.isolated template))
      ++ rest.stations settings around
        (Render.isolated template (hosted (.ok ()) (inside.run settings)) s).2

end Course

/-! ## More and more is kept -/

variable {settings : Settings}

/-- The moments of a stretch, seen from outside isolated partials. -/
theorem Settings.Leads.within {c c' : Assoc Document} {l : List Station}
    (h : settings.Leads c l c') (around : List Frame) :
    settings.Leads c (l.map fun p => ⟨p.around ++ around, p.state⟩) c' where
  whole := h.whole
  first := List.forall_mem_map.mpr h.first
  last := List.forall_mem_map.mpr h.last
  chain := List.pairwise_map.mpr h.chain

theorem ContextAction.leads_stations (action : ContextAction) (s : RenderState) :
    settings.Leads s.cache (action.stations settings s) (action.step settings s).2.cache := by
  -- Rendering and loading may read partials; everything else keeps the cache as it is.
  cases action with
  | render document => exact document.leads_stations s
  | load name =>
    have hload : (ContextAction.step settings (.load name) s).2.cache
        = (loadPartial settings name s).2.cache := by
      show ((loadPartial settings name >>= fun _ => pure ()) s).2.cache = _
      rw [Attempt.bind_apply]
      cases h : loadPartial settings name s with
      | mk r t => cases r <;> rfl
    rw [hload]
    exact .nil (settings.extends_loadPartial name s)
  | assign name value =>
    rw [step, Script.cache_assign]
    exact .nil (.refl _)
  | rescue line blank e =>
    rw [step, Script.cache_rescue]
    exact .nil (.refl _)
  | bind name value => exact .nil (.refl _)
  | emit text => exact .nil (.refl _)
  | interrupt i => exact .nil (.refl _)
  | takeInterrupt => exact .nil (.refl _)
  | register name value => exact .nil (.refl _)
  | setBudget budget => exact .nil (.refl _)

namespace Course

/-- At the moments of a course more and more partials are kept. -/
theorem leads_stations (course : Course) (around : List Frame) (s : RenderState) :
    settings.Leads s.cache (course.stations settings around s) (course.run settings s).cache := by
  -- A scope and an isolated context hand the registers in and back, whatever they end with.
  induction course generalizing around s with
  | done => exact .single rfl
  | act action rest ih =>
    have hact : settings.Leads s.cache (action.stations settings s)
        (action.step settings s).2.cache := action.leads_stations s
    have hstart : settings.Leads s.cache [⟨around, s⟩] s.cache := .single rfl
    exact (hstart.append (hact.within around)).append (ih around (action.step settings s).2)
  | inScope inside result rest ihInside ihRest =>
    have hstart : settings.Leads s.cache [⟨around, s⟩] s.cache := .single rfl
    have hend := inScope_eq (hosted result (inside.run settings)) s
    rw [stations, run]
    split
    · rename_i hlimit
      rw [if_pos hlimit] at hend
      rw [hend]
      exact hstart.append (ihRest around s)
    · rename_i hlimit
      rw [if_neg hlimit] at hend
      rw [hend]
      exact (hstart.append (ihInside around s.entered)).append
        (ihRest around (inside.run settings s.entered).popScope)
  | isolated template inside rest ihInside ihRest =>
    have hstart : settings.Leads s.cache [⟨around, s⟩] s.cache := .single rfl
    have hinside := ihInside (s.frame :: around) (s.withFrame (s.frame.isolated template))
    exact (hstart.append hinside).append
      (ihRest around (Render.isolated template (hosted (.ok ()) (inside.run settings)) s).2)

/-- In a context that starts without partials, whatever a host does, at every moment that comes up
the partials are kept that were kept before. A partial that is loaded then is the document of its
source, read under its name and as the context says, and is kept. One that cannot be read fails as
reading it does, and leaves no trace. -/
theorem loadPartial_stations (course : Course) {s : RenderState}
    (hempty : s.progress.registers.partials = []) :
    (course.stations settings [] s).Pairwise
        (fun p q => ∀ name document, p.state.progress.registers.partials.get? name = some document →
          q.state.progress.registers.partials.get? name = some document)
      ∧ ∀ p ∈ course.stations settings [] s, ∀ name,
        let options := { settings.parsing with name := some name }
        let read : Except Error Document := do
          let source ← settings.registry.files name
          (Document.parse (.ofOptions settings.registry options) source {}).1
        match read with
        | .ok document => ∃ t, loadPartial settings name p.state = (.ok document, t)
          ∧ t.progress.registers.partials.get? name = some document
        | .error e => loadPartial settings name p.state = (.error e, p.state) := by
  have hleads : settings.Leads s.cache (course.stations settings [] s)
      (course.run settings s).cache := course.leads_stations [] s
  refine ⟨hleads.chain.imp fun h name document => h.kept, fun p hp name => ?_⟩
  -- At first nothing is kept, so what is kept later was read during the course.
  have hstart := hleads.first p hp
  rw [RenderState.cache, hempty] at hstart
  exact Settings.loadPartial_of_extends_nil hstart name

/-- A page calls a partial that cannot be read, and one that calls another one. Then the host goes
on in an isolated context, in a scope that it leaves with an error. -/
theorem loadPartial_stations_broken :
    let files := [("card", "\x7b% render 'row' %\x7d"), ("row", "x"),
      ("broken", "\x7b% if %\x7d")]
    let settings : Settings := { registry := { Registry.standard with files := .ofFiles files } }
    let call (name : String) : PartialCall := { template := .literal (.str name) }
    let page : Document :=
      .mk [.tag (.includePartial (call "broken") none),
        .tag (.renderPartial "card" (call "card") none)] false
    -- In a scope of an isolated context, and after a failed render of the same partial.
    let inside : Course := .act (.load "row") (.act (.load "broken") .done)
    let course : Course :=
      .act (.render page) (.isolated none (.inScope inside (.error .tooDeep) .done) .done)
    let s : RenderState := {}
    s.progress.registers.partials = []
      ∧ (course.run settings s).progress.registers.partials.keys = ["card", "row"]
      ∧ (∃ p ∈ course.stations settings [] s, p.around.length = 2)
      ∧ ∃ e, settings.readPartial "broken" = .error e
        ∧ ∀ p ∈ course.stations settings [] s,
          loadPartial settings "broken" p.state = (.error e, p.state) := by
  intro files settings call page inside course s
  have hempty : s.progress.registers.partials = [] := rfl
  obtain ⟨-, hloads⟩ := @loadPartial_stations settings course s hempty
  have hkeys : (course.run settings s).progress.registers.partials.keys = ["card", "row"] := by
    decide +kernel
  have hdeep : ((course.stations settings [] s).any fun p => p.around.length == 2) = true := by
    decide +kernel
  have hbroken : (settings.readPartial "broken").toOption.isNone = true := by decide +kernel
  refine ⟨hempty, hkeys, ?_, ?_⟩
  · obtain ⟨p, hp, hlength⟩ := List.any_eq_true.mp hdeep
    exact ⟨p, hp, eq_of_beq hlength⟩
  · cases hread : settings.readPartial "broken" with
    | ok document =>
      rw [hread] at hbroken
      exact nomatch hbroken
    | error e =>
      refine ⟨e, rfl, fun p hp => ?_⟩
      have hload : match settings.readPartial "broken" with
          | .ok document => ∃ t, loadPartial settings "broken" p.state = (.ok document, t)
            ∧ t.cache.get? "broken" = some document
          | .error e => loadPartial settings "broken" p.state = (.error e, p.state) :=
        hloads p hp "broken"
      rwa [hread] at hload

end Course

end Stencil
