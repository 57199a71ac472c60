import Stencil.Proofs.Lockstep
import Stencil.Proofs.Script
import Stencil.Template

/-!
# The points of a render

Every point of a render, with the value that was just stored there, if any. An isolated partial has
an outermost scope of its own: what it stores there the template does not see, and at its points the
template's outermost scope is as it was when the partial was called.

## Key definitions

- `Script.points`, `Document.points`, `Template.points`: the points of a render
- `bindings`: the values stored at them
- `EndAt`: what some points lead to
- `Along`: what holds at each point, of what was stored until then

## Key results

- `Script.endAt_points`: the last point of a script is the end of its run
- `Along.append`, `Along.shift`, `Along.behind`: one stretch after another, or inside another
-/

namespace Stencil

open Render

/-! ## Points -/

/-- A point of a render: the state after a step. -/
structure Point where
  /-- The value that the step stored, if it did. -/
  stored : Option (String × Value) := none
  /-- The outermost scope of the template. -/
  outer : Object
  state : RenderState

namespace Point

/-- The point in a state, where nothing was stored. -/
def of (s : RenderState) : Point :=
  { outer := s.frame.scopes.outer, state := s }

/-- The point in a state, where a value was stored. -/
def storing (name : String) (value : Value) (s : RenderState) : Point :=
  { stored := some (name, value), outer := s.frame.scopes.outer, state := s }

/-- The point as it is seen from outside an isolated partial: what the partial stores is its own. -/
def behind (outer : Object) (p : Point) : Point :=
  { p with stored := none, outer }

end Point

/-- The values stored at the points, in order. -/
def bindings (points : List Point) : List (String × Value) :=
  points.filterMap Point.stored

/-- The points of a script that is run from a state. -/
def Script.points (settings : Settings) :
    {b : Bool} → {α : Type} → Script b α → RenderState → List Point
  | _, _, .bind x f, s =>
    x.points settings s ++
      match x.run settings s with
      | (.ok a, t) => (f a).points settings t
      | (.error _, _) => []
  | _, _, .assign name value, s =>
    match charge (·.chargeAssign value.storageCost) s with
    | (.ok _, t) => [.of t, .storing name value (store name value t).2]
    | (.error _, t) => [.of t]
  | _, _, .capture name x, s =>
    x.points settings (s.beginCapture.withOutput "") ++
      match captured (x.run settings) s with
      | (.ok text, t) => [.of t, .storing name (.str text) (store name (.str text) t).2]
      | (.error _, t) => [.of t]
  -- What stands around other steps has one more point, where it is closed.
  | _, _, .diverted x, s =>
    x.points settings (s.withOutput "") ++ [.of (Render.diverted (x.run settings) s).2]
  | _, _, .inScope x, s =>
    if exceeds (s.progress.budget.depth + 1) s.progress.budget.depthCeiling then [.of s]
    else x.points settings s.entered ++ [.of (Render.inScope (x.run settings) s).2]
  | _, _, .inTemplate name x, s =>
    x.points settings (s.withTemplate (some name)) ++
      [.of (Render.inTemplate name (x.run settings) s).2]
  | _, _, .isolated template x, s =>
    (x.points settings (s.withFrame (s.frame.isolated template))).map
        (·.behind s.frame.scopes.outer) ++
      [.of (Render.isolated template (x.run settings) s).2]
  | _, _, .inLoop loop x, s =>
    x.points settings (s.withLoops (loop :: s.frame.loops)) ++
      [.of (Render.inLoop loop (x.run settings) s).2]
  | _, _, .rescuing line blank x, s =>
    x.points settings s ++ [.of (Render.rescuing settings line blank (x.run settings) s).2]
  | _, _, x, s => [.of (x.run settings s).2]

/-- The points of rendering a document, from its start on. -/
def Document.points (settings : Settings) (document : Document) (s : RenderState) : List Point :=
  let script : Script false Unit := scriptWithin settings s.progress.budget.scopesLeft document
  .of s :: script.points settings s

/-- The points of rendering a template. -/
def Template.points (t : Template) (values : Object) (options : RenderOptions) (rethrow : Bool) :
    List Point :=
  match t.document with
  | none => []
  | some document =>
    document.points (options.settings t.registry t.parsing rethrow) (t.start values options)

/-- The last of some points is at a state. -/
def EndAt (points : List Point) (s : RenderState) : Prop :=
  ∃ before p, points = before ++ [p] ∧ p.state = s ∧ p.outer = s.frame.scopes.outer

/-- The points end at the state. -/
theorem endAt_of (s : RenderState) (points : List Point) : EndAt (points ++ [.of s]) s :=
  ⟨points, _, rfl, rfl, rfl⟩

theorem endAt_storing (name : String) (value : Value) (s : RenderState) (points : List Point) :
    EndAt (points ++ [.storing name value s]) s :=
  ⟨points, _, rfl, rfl, rfl⟩

/-- Earlier points make no difference to the end. -/
theorem EndAt.append {points : List Point} {s : RenderState} (h : EndAt points s)
    (earlier : List Point) : EndAt (earlier ++ points) s := by
  obtain ⟨before, p, rfl, hstate, houter⟩ := h
  exact ⟨earlier ++ before, p, (List.append_assoc ..).symm, hstate, houter⟩

/-- The last point of a script is the end of its run. -/
theorem Script.endAt_points {σ : Settings} {b : Bool} {α : Type} (x : Script b α)
    (s : RenderState) : EndAt (x.points σ s) (x.run σ s).2 := by
  induction x generalizing s with
  -- The points of the second part stand behind those of the first.
  | @bind b α β x f ih ihf =>
    rw [points, run]
    cases hr : x.run σ s with
    | mk r t =>
      cases r with
      | error e =>
        have hx := ih s
        rw [hr] at hx
        rw [Attempt.bind_of_error hr, List.append_nil]
        exact hx
      | ok a =>
        rw [Attempt.bind_of_ok hr]
        exact (ihf a t).append _
  -- The charge comes first; if it is refused, nothing is stored.
  | assign name value =>
    rw [points, run, assign_eq]
    cases charge (·.chargeAssign value.storageCost) s with
    | mk r t =>
      cases r with
      | ok a => exact endAt_storing name value _ [.of t]
      | error e => exact endAt_of t []
  | capture name x ih =>
    rw [points, run]
    cases hr : captured (x.run σ) s with
    | mk r t =>
      cases r with
      | ok text =>
        rw [Attempt.bind_of_ok hr]
        exact (endAt_storing name (.str text) _ [.of t]).append _
      | error e =>
        rw [Attempt.bind_of_error hr]
        exact endAt_of t _
  | inScope x ih =>
    rw [points, run]
    split
    · -- No scope is entered beyond the depth, so the state is the one before.
      rename_i hlimit
      rw [inScope_eq, if_pos hlimit]
      exact endAt_of s []
    · exact endAt_of _ _
  | aside x h => exact endAt_of _ []
  | evaluate e => exact endAt_of _ []
  | pipeline p => exact endAt_of _ []
  | condition c => exact endAt_of _ []
  | score nodes => exact endAt_of _ []
  | emit text => exact endAt_of _ []
  | bindAll entries => exact endAt_of _ []
  | diverted x ih => exact endAt_of _ _
  | inTemplate name x ih => exact endAt_of _ _
  | isolated template x ih => exact endAt_of _ _
  | inLoop loop x ih => exact endAt_of _ _
  | rescuing line blank x ih => exact endAt_of _ _

/-- The points of a document are those of the script that renders it. -/
theorem Document.render_eq_run {σ : Settings} (document : Document) (s : RenderState) :
    document.render σ s
      = (scriptWithin σ s.progress.budget.scopesLeft document : Script false Unit).run σ s := by
  rw [run_scriptWithin (b := false) ⟨rfl, rfl⟩]
  rfl

/-- The last point of a document is the end of its render. -/
theorem Document.endAt_points {σ : Settings} (document : Document) (s : RenderState) :
    EndAt (document.points σ s) (document.render σ s).2 := by
  rw [render_eq_run]
  exact (Script.endAt_points _ s).append [.of s]

/-- What is stored by the one points, and then by the others. -/
@[simp] theorem bindings_append (points points' : List Point) :
    bindings (points ++ points') = bindings points ++ bindings points' :=
  List.filterMap_append

/-- What the first point stores, and then the others. -/
@[simp] theorem bindings_cons (p : Point) (points : List Point) :
    bindings (p :: points) = p.stored.toList ++ bindings points := by
  unfold bindings
  cases h : p.stored with
  | none => rw [List.filterMap_cons_none h]; rfl
  | some e => rw [List.filterMap_cons_some h]; rfl

/-- Points of another frame store nothing here. -/
@[simp] theorem bindings_map_behind (outer : Object) (points : List Point) :
    bindings (points.map (·.behind outer)) = [] := by
  induction points with
  | nil => rfl
  | cons p points ih =>
    rw [List.map_cons, bindings_cons, ih]
    rfl

/-! ## What holds at every point -/

/-- `P` holds at every point, of what was stored until then, `before` included. -/
def Along (P : List (String × Value) → Point → Prop) (before : List (String × Value)) :
    List Point → Prop
  | [] => True
  | p :: points =>
    P (before ++ p.stored.toList) p ∧ Along P (before ++ p.stored.toList) points

namespace Along

variable {P Q : List (String × Value) → Point → Prop} {before : List (String × Value)}
  {points points' : List Point}

-- What comes later is asked about all that was stored before it, so `before` varies.
/-- Along the one points, and then along the others. -/
theorem append (h : Along P before points) (h' : Along P (before ++ bindings points) points') :
    Along P before (points ++ points') := by
  induction points generalizing before with
  | nil =>
    rw [show bindings [] = [] from rfl, List.append_nil] at h'
    exact h'
  | cons p points ih =>
    rw [bindings_cons, ← List.append_assoc] at h'
    exact ⟨h.1, ih h.2 h'⟩

/-- What holds along the points may be weakened. -/
theorem mono (h : Along P before points) (hpq : ∀ stored p, P stored p → Q stored p) :
    Along Q before points := by
  induction points generalizing before with
  | nil => trivial
  | cons p points ih => exact ⟨hpq _ p h.1, ih h.2⟩

/-- What holds of what was stored since some point holds of what was stored until then as well. -/
theorem shift (h : Along P before points) (earlier : List (String × Value))
    (hpq : ∀ stored p, P stored p → Q (earlier ++ stored) p) :
    Along Q (earlier ++ before) points := by
  induction points generalizing before with
  | nil => trivial
  | cons p points ih =>
    have hrest := ih h.2
    rw [← List.append_assoc] at hrest
    refine ⟨?_, hrest⟩
    rw [List.append_assoc]
    exact hpq _ p h.1

/-- Seen from outside an isolated partial nothing is stored. -/
theorem behind {outer : Object} (h : Along P before points)
    (hpq : ∀ stored p, P stored p → Q [] (p.behind outer)) :
    Along Q [] (points.map (·.behind outer)) := by
  induction points generalizing before with
  | nil => trivial
  | cons p points ih => exact ⟨hpq _ p h.1, ih h.2⟩

/-- At a point within the list `P` holds of what was stored up to there. -/
theorem at_point {p : Point} (h : Along P before (points ++ p :: points')) :
    P (before ++ bindings (points ++ [p])) p := by
  induction points generalizing before with
  | nil =>
    have hbound : bindings [p] = p.stored.toList := by
      rw [bindings_cons]
      exact List.append_nil _
    rw [List.nil_append, hbound]
    exact h.1
  | cons q points ih =>
    have hp := ih h.2
    rw [List.append_assoc, ← bindings_cons] at hp
    exact hp

end Along

end Stencil
