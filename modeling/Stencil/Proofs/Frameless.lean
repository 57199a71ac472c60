import Stencil.Render.Document

/-!
# Steps that leave their frame alone

An isolated partial sees nothing of the frame that it is called from, apart from the tags
that must not be used there, and changes nothing of it. The same goes for loading the
partial and for making bindings that are not taken from the frame.

## Key results

- `Frameless`: such steps, closed under sequencing
- `frameless_renderOnce`, `frameless_renderMember`: isolated partials
-/

namespace Stencil

open Render

/-- A step that sees nothing of the frame but the disabled tags, and changes nothing of it. -/
structure Frameless {α : Type} (x : Render α) : Prop where
  congr {s t : RenderState} : s.progress = t.progress → s.frame.disabled = t.frame.disabled →
    (x s).1 = (x t).1 ∧ (x s).2.progress = (x t).2.progress
  frame (s : RenderState) : (x s).2.frame = s.frame

variable {α β : Type} {settings : Settings} {partials : PartialRenderer} {name : String}
  {attributes : List (String × Value)}

namespace Frameless

/-- Giving a value looks at no frame. -/
theorem pure (a : α) : Frameless (Pure.pure a : Render α) :=
  ⟨fun hp _ => ⟨rfl, hp⟩, fun _ => rfl⟩

/-- One step after the other. -/
theorem bind {x : Render α} {f : α → Render β} (hx : Frameless x)
    (hf : ∀ a, Frameless (f a)) : Frameless (x >>= f) where
  congr {s t} hp hd := by
    obtain ⟨hr, hp'⟩ := hx.congr hp hd
    -- Neither run changes its frame, so both second parts see the same `disabled` as before.
    have hs := hx.frame s
    have ht := hx.frame t
    rw [Attempt.bind_apply, Attempt.bind_apply]
    cases h : x s with
    | mk r s' =>
      cases h' : x t with
      | mk r' t' =>
        rw [h] at hr hp' hs
        rw [h'] at hr hp' ht
        have hr : r = r' := hr
        subst hr
        cases r with
        | ok a => exact (hf a).congr hp' (by rw [hs, ht, hd])
        | error e => exact ⟨rfl, hp'⟩
  frame s := by
    have hs := hx.frame s
    rw [Attempt.bind_apply]
    cases h : x s with
    | mk r s' =>
      rw [h] at hs
      cases r with
      | ok a => exact ((hf a).frame s').trans hs
      | error e => exact hs

/-- What is isolated looks at a frame of its own. -/
theorem isolated (template : Option String) (x : Render α) :
    Frameless (isolated template x) :=
  ⟨progress_isolated_congr template x, frame_isolated template x⟩

end Frameless

/-- A partial is found among the registers. -/
theorem frameless_loadPartial (settings : Settings) (name : String) :
    Frameless (loadPartial settings name) where
  -- Only the registers are read, and they are part of the progress.
  congr {s t} hp _ := by
    unfold loadPartial
    rw [hp]
    split
    · exact ⟨rfl, hp⟩
    · split
      · exact ⟨rfl, rfl⟩
      · exact ⟨rfl, hp⟩
  frame s := by
    unfold loadPartial
    split
    · rfl
    · split <;> rfl

/-- What is bound for a member does not depend on the frame. -/
theorem frameless_memberBindings (name target : String) (members : Slice) (index : Nat) :
    Frameless (memberBindings name target members index) where
  congr {s t} hp _ := by
    obtain ⟨frame, progress⟩ := s
    obtain ⟨frame', progress'⟩ := t
    obtain rfl : progress = progress' := hp
    exact ⟨rfl, rfl⟩
  frame _ := rfl

/-- An isolated partial does not see the frame of its caller. -/
theorem frameless_renderOnce {bindings : Render (List (String × Value))}
    (hb : Frameless bindings) :
    Frameless (renderOnce settings partials name attributes bindings) :=
  .bind (frameless_loadPartial settings name) fun _ => .bind hb fun _ => .isolated _ _

/-- A partial that is rendered sees nothing of the frame. -/
theorem frameless_renderMember (target : String) (members : Slice) (index : Nat) :
    Frameless (renderMember settings partials name target attributes members index) :=
  .bind (frameless_renderOnce (frameless_memberBindings name target members index)) fun _ =>
    .pure true

end Stencil
