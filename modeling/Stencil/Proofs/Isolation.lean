import Stencil.Proofs.Frameless
import Stencil.Proofs.Lockstep

/-!
# Isolated partials

What a partial does that is rendered isolated depends on nothing that belongs to the
template it is called from: not on variables, pending interrupts, running loops or the
name of the template. Nor does it change any of that.

Two callers are compared that have in common what belongs to the whole render. The partial
cannot see the difference in their frames, as it gets a frame of its own, and what was
written before is never looked at.

## Key results

- `Indifferent`: what it means that a step does the same for two callers
- `indifferent_renderOnce`: isolated partials do
-/

namespace Stencil

open Render

/-- What two callers have in common: what is registered, spent and recorded, and the tags that must
not be used. The objects that loops make are compared by identity, which the count of iterations
stands for, so that the next object is the same one for both. -/
structure RenderState.Shares (s t : RenderState) : Prop where
  registers : s.progress.registers = t.progress.registers
  budget : s.progress.budget = t.progress.budget
  errors : s.progress.errors = t.progress.errors
  iterations : s.progress.iterations = t.progress.iterations
  disabled : s.frame.disabled = t.frame.disabled

/-- A step that does the same for two callers and leaves the frame of each as it is, whatever they
wrote before. -/
structure Indifferent {α : Type} (x : Render α) (s t : RenderState) : Prop where
  result : (x s).1 = (x t).1
  output : ∃ text, (x s).2.progress.output = s.progress.output ++ text
    ∧ (x t).2.progress.output = t.progress.output ++ text
  shares : (x s).2.Shares (x t).2
  frame : (x s).2.frame = s.frame
  frame_right : (x t).2.frame = t.frame

variable {settings : Settings} {s t : RenderState}

/-- What was written before stays in front, and nothing else depends on it. -/
private theorem eq_behind {α : Type} {x : Render α} {Q : α → Prop}
    (h : (Versions.itself settings).Alike x x Q) (s : RenderState) :
    x s = ((x (s.withOutput "")).1,
      (x (s.withOutput "")).2.behind s.progress.output
        (x (s.withOutput "")).2.progress.errors) := by
  have hlasts : LastsUnderPush (· = ·) := fun _ _ _ herrors => by rw [herrors]
  obtain ⟨errors', heq, herrors⟩ :=
    h.lockstep_self hlasts (fun _ _ => id) (s.withOutput "") s.progress.output s.progress.errors rfl
  have hs : (s.withOutput "").behind s.progress.output s.progress.errors = s := by
    simp [RenderState.behind, RenderState.withOutput]
  rw [hs] at heq
  rw [heq, herrors]

/-- A step that sees nothing of the frame does the same for callers that share the rest. -/
private theorem indifferent_of_alike {α : Type} {x : Render α} {Q : α → Prop}
    (hx : Frameless x) (h : (Versions.itself settings).Alike x x Q) (hst : s.Shares t) :
    Indifferent x s t := by
  -- Both are compared where nothing was written yet.
  have hprogress : (s.withOutput "").progress = (t.withOutput "").progress := by
    simp [RenderState.withOutput, hst.registers, hst.budget, hst.errors, hst.iterations]
  obtain ⟨hr, hp⟩ := hx.congr hprogress hst.disabled
  have hs := eq_behind h s
  have ht := eq_behind h t
  have hframe := hx.frame s
  have hframe' := hx.frame t
  refine ⟨?_, ⟨(x (s.withOutput "")).2.progress.output, ?_, ?_⟩, ?_, hframe, hframe'⟩
  · rw [hs, ht, hr]
  · rw [hs]
    rfl
  · rw [ht, hp]
    rfl
  · have hregisters := congrArg Progress.registers hp
    have hbudget := congrArg Progress.budget hp
    have herrors := congrArg Progress.errors hp
    have hiterations := congrArg Progress.iterations hp
    rw [hs, ht]
    exact ⟨hregisters, hbudget, herrors, hiterations,
      (congrArg Frame.disabled (hx.frame (s.withOutput ""))).trans <| hst.disabled.trans
        (congrArg Frame.disabled (hx.frame (t.withOutput ""))).symm⟩

/-- What an isolated partial does is the same for callers that have the registers, the budget, the
recorded errors and the disabled tags in common, and it leaves their frames as they are. This
holds of a partial that is rendered once with given bindings and of one that is rendered for the
member of a collection. -/
theorem indifferent_renderOnce (settings : Settings) (levels : Nat) (name : String)
    (attributes : List (String × Value)) {s t : RenderState} (hst : s.Shares t) :
    let partials := Document.renderWithin settings levels
    (∀ bindings : List (String × Value),
        Indifferent (renderOnce settings partials name attributes (pure bindings)) s t)
      ∧ ∀ (target : String) (members : Slice) (index : Nat),
        Indifferent (renderMember settings partials name target attributes members index) s t := by
  intro partials
  -- Two runs over the same settings, with equality for what their states share.
  have hg : Unaware Eq settings (fun _ => True) (fun _ => True) := .trivial settings
  have hpartials (document : Document) : (Versions.itself settings).Alike (partials document)
      (partials document) fun _ => True := Document.alike_renderWithin hg levels document
  constructor
  · intro bindings
    have halike : (Versions.itself settings).Alike
        (renderOnce settings partials name attributes (pure bindings)) _ fun _ => True :=
      Versions.alike_renderOnce hg hpartials name (fun _ _ => ⟨⟩) (.pure fun _ _ => ⟨⟩)
    exact indifferent_of_alike (frameless_renderOnce (.pure bindings)) halike hst
  · intro target members index
    have halike : (Versions.itself settings).Alike
        (renderMember settings partials name target attributes members index) _ fun _ => True :=
      Versions.alike_renderMember hg hpartials name target (fun _ _ => ⟨⟩) (fun _ => ⟨⟩) index
    exact indifferent_of_alike (frameless_renderMember target members index) halike hst

/-- A partial that writes, assigns and breaks does not tell the caller that binds its variable and
has an interrupt pending from the one that does not. -/
theorem indifferent_renderOnce_interrupted :
    let assign : Tag := .assign "x" { source := .literal (.int 2), filters := [] } none
    let document : Document :=
      .mk [.output { source := .variable "x", filters := [] }, .tag assign,
        .tag (.interrupt .break none)] false
    let registers : Registers := { partials := [("x", document)] }
    let s : RenderState := { progress := { registers } }
    let t : RenderState :=
      { frame :=
          { scopes := { outer := [("x", .int 1)] }
            interrupts := [.continue]
            template := some "caller" }
        progress := { registers, output := "x = " } }
    s.Shares t
      ∧ Indifferent
          (renderOnce {} (Document.renderWithin {} 1) "x" [("y", .int 3)] (pure [])) s t := by
  intro assign document registers s t
  have hst : s.Shares t := ⟨rfl, rfl, rfl, rfl, rfl⟩
  exact ⟨hst, (indifferent_renderOnce {} 1 "x" [("y", .int 3)] hst).1 []⟩

end Stencil
