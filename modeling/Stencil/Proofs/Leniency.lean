import Stencil.Proofs.Script
import Stencil.Proofs.Strictness

/-!
# Renders that let names be undefined

Two switches say whether a name without a meaning is an error: one for variables and the members
of host objects, one for filters. Evaluation asks for them in four places, and in each of them the
answer is either such an error or what there is without the switch. No filter, condition, tag or
partial deals with an error of its own, so the error is recorded or ends the render. A render that
has none of them is therefore the same without the switches.

Only the objects of the host can be shown the switches themselves. That a render does not look at
them in any other way is an induction over its script.

## Key definitions

- `Registry.RelaxesNames`: objects and filters of the host that ask for the switches only to raise
  such an error
- `Unnoticed`: a step neither fails with such an error nor has one on record

## Key results

- `Registry.RelaxesNames.of_standard`: the standard filters
- `Script.relaxesNames`: the steps of a render
- `Template.render_lenient`: whole renders
-/

namespace Stencil

open Render

/-! ## Switches -/

/-- The surroundings in which names may be undefined. -/
def Surroundings.lenient (s : Surroundings) : Surroundings :=
  { s with strictVariables := false, strictFilters := false }

/-- The view in which names may be undefined. -/
def View.lenient (view : View) : View :=
  { view with strictVariables := false, strictFilters := false }

/-- The settings under which names may be undefined. -/
def Settings.lenient (settings : Settings) : Settings :=
  { settings with strictVariables := false, strictFilters := false }

/-- The options under which names may be undefined. -/
def RenderOptions.lenient (options : RenderOptions) : RenderOptions :=
  { options with strictVariables := false, strictFilters := false }

/-! ## Results -/

/-- The result is not the error of an undefined name. -/
abbrev IsDefined {α : Type} : Except Error α → Prop :=
  Meets (fun _ => True) (·.isUndefined = false)

/-! ## Evaluation -/

/-- Without the switches a host object answers the same, unless it says that a name is undefined. -/
def Answers.RelaxNames (answers : Answers) : Prop :=
  ∀ (s : Surroundings) id name,
    Follows Error.isUndefined (answers id name s) (answers id name s.lenient)

/-- Without the switches the filter does the same, unless it meets an undefined name. -/
def Filter.RelaxesNames (f : Filter) : Prop :=
  ∀ (view : View) (input : Value) (args : Arguments), view.answers.RelaxNames →
    Stencil.Follows Error.isUndefined (f.run view input args) (f.run view.lenient input args)

/-- The code of the host asks for the switches only to say that a name is undefined. -/
structure Registry.RelaxesNames (r : Registry) : Prop where
  answers : r.answers.RelaxNames
  filters : ∀ e ∈ r.filters, Filter.RelaxesNames e.2

/-- Without the switches an evaluation is the same but where it meets an undefined name. -/
theorem View.followedBy_lenient {view : View} (hanswers : view.answers.RelaxNames) :
    view.FollowedBy Error.isUndefined view.lenient where
  find _ := rfl
  answers id name := hanswers view.toSurroundings id name
  strictVariables := .inr ⟨rfl, fun _ h => h⟩
  strictFilters := .inr ⟨rfl, fun _ h => h⟩
  room _ := .of_eq rfl

/-- Every standard filter does the same without the switches, unless it meets an undefined name. -/
theorem Registry.RelaxesNames.of_standard {r : Registry} (hfilters : r.filters = Filter.standard)
    (hanswers : r.answers.RelaxNames) : r.RelaxesNames where
  answers := hanswers
  filters e he view input args ha := by
    rw [hfilters] at he
    exact Filter.standard_follows e he view view.lenient input args (View.followedBy_lenient ha)

/-- What the host's data lists asks for no switch. -/
theorem Answers.none_relaxNames : Answers.none.RelaxNames :=
  fun _ _ _ => .of_eq rfl

/-! ## Steps -/

/-- A step did not fail with the error of an undefined name, and there is none on record. -/
structure Unnoticed {α : Type} (r : Except Error α) (s : RenderState) : Prop where
  raised : IsDefined r
  recorded : ∀ e ∈ s.progress.errors, e.isUndefined = false

/-- What is on record stays there, and the second step does what the first one does, unless that
notices an undefined name. -/
structure RelaxesNames {α : Type} (x y : Render α) : Prop where
  errors (s : RenderState) : ∀ e ∈ s.progress.errors, e ∈ (x s).2.progress.errors
  same (s : RenderState) : Unnoticed (x s).1 (x s).2 → y s = x s

namespace RelaxesNames

variable {α β : Type}

/-- What has nothing to do with names is the same. -/
theorem aside {x : Render α} (h : Aside x) : RelaxesNames x x where
  errors s e he := by
    rw [h.errors_eq]
    exact he
  same _ _ := rfl

/-- A step that only looks something up. -/
theorem look {f f' : RenderState → Except Error α}
    (h : ∀ s, Follows Error.isUndefined (f s) (f' s)) :
    RelaxesNames (fun s => (f s, s)) fun s => (f' s, s) where
  errors _ _ he := he
  same s hs := by rw [h s hs.raised]

/-- A charge asks for no name. -/
theorem charge (cost : Budget → Except Error Unit × Budget) :
    RelaxesNames (charge cost) (charge cost) :=
  ⟨fun _ _ he => he, fun _ _ => rfl⟩

theorem emit (text : String) : RelaxesNames (emit text) (emit text) :=
  ⟨fun _ _ he => he, fun _ _ => rfl⟩

theorem modifyScopes (f : Scopes → Scopes) : RelaxesNames (modifyScopes f) (modifyScopes f) :=
  ⟨fun _ _ he => he, fun _ _ => rfl⟩

/-- One step after the other: where nothing undefined came up the first one did the same in both. -/
theorem bind {x y : Render α} {f g : α → Render β} (h : RelaxesNames x y)
    (hf : ∀ a, RelaxesNames (f a) (g a)) : RelaxesNames (x >>= f) (y >>= g) where
  errors s e he := by
    have hx := h.errors s e he
    cases hr : x s with
    | mk r t =>
      rw [hr] at hx
      cases r with
      | ok a =>
        rw [Attempt.bind_of_ok hr]
        exact (hf a).errors t e hx
      | error e' =>
        rw [Attempt.bind_of_error hr]
        exact hx
  same s hs := by
    have hy := h.same s
    cases hr : x s with
    | mk r t =>
      rw [hr] at hy
      cases r with
      | ok a =>
        rw [Attempt.bind_of_ok hr] at hs ⊢
        -- What the first step has on record is there in the end.
        have hrecorded : ∀ e ∈ t.progress.errors, e.isUndefined = false :=
          fun e he => hs.recorded e ((hf a).errors t e he)
        rw [Attempt.bind_of_ok (hy ⟨trivial, hrecorded⟩)]
        exact (hf a).same t hs
      | error e =>
        rw [Attempt.bind_of_error hr] at hs ⊢
        exact Attempt.bind_of_error (hy ⟨hs.raised, hs.recorded⟩) g

/-- A step that is taken in another state and whose result and state are changed afterwards, but not
the errors in them. -/
theorem within {x y : Render α} {x' y' : Render β} (h : RelaxesNames x y)
    (before : RenderState → RenderState)
    (after : RenderState → Except Error α × RenderState → Except Error β × RenderState)
    (hx : ∀ s, x' s = after s (x (before s))) (hy : ∀ s, y' s = after s (y (before s)))
    (hbefore : ∀ s, (before s).progress.errors = s.progress.errors)
    (hafter : ∀ s r, (after s r).2.progress.errors = r.2.progress.errors)
    (hresult : ∀ s r, IsDefined (after s r).1 → IsDefined r.1) :
    RelaxesNames x' y' where
  errors s e he := by
    rw [hx, hafter]
    apply h.errors
    rw [hbefore]
    exact he
  same s hs := by
    rw [hx] at hs ⊢
    rw [hy]
    -- What is done before and after is the same, and records nothing.
    refine congrArg (after s) (h.same (before s) ⟨hresult s _ hs.raised, fun e he => ?_⟩)
    apply hs.recorded
    rw [hafter]
    exact he

/-- What is diverted runs on an empty output in both. -/
theorem diverted {x y : Render Unit} (h : RelaxesNames x y) :
    RelaxesNames (diverted x) (diverted y) := by
  refine h.within (·.withOutput "")
    (fun s r => (r.1.map fun _ => r.2.progress.output, r.2.withOutput s.progress.output))
    (diverted_eq x) (diverted_eq y) (fun _ => rfl) (fun _ _ => rfl) ?_
  rintro s ⟨r, t⟩ hr
  cases r with
  | ok a => trivial
  | error e => exact hr

theorem captured {x y : Render Unit} (h : RelaxesNames x y) :
    RelaxesNames (captured x) (captured y) :=
  h.diverted.within (·.beginCapture) (fun _ r => (r.1, r.2.endCapture)) (captured_eq x)
    (captured_eq y) (fun _ => rfl) (fun _ _ => rfl) fun _ _ hr => hr

/-- The name of the template makes no difference. -/
theorem inTemplate {x y : Render α} (h : RelaxesNames x y) (name : String) :
    RelaxesNames (inTemplate name x) (inTemplate name y) :=
  h.within (·.withTemplate (some name)) (fun s r => (r.1, r.2.withTemplate s.frame.template))
    (inTemplate_eq name x) (inTemplate_eq name y) (fun _ => rfl) (fun _ _ => rfl)
    fun _ _ hr => hr

theorem isolated {x y : Render α} (h : RelaxesNames x y) (template : Option String) :
    RelaxesNames (isolated template x) (isolated template y) :=
  h.within (fun s => s.withFrame (s.frame.isolated template))
    (fun s r => (r.1, r.2.withFrame s.frame)) (isolated_eq template x) (isolated_eq template y)
    (fun _ => rfl) (fun _ _ => rfl) fun _ _ hr => hr

theorem inLoop {x y : Render α} (h : RelaxesNames x y) (loop : Value) :
    RelaxesNames (inLoop loop x) (inLoop loop y) :=
  h.within (fun s => s.withLoops (loop :: s.frame.loops))
    (fun s r => (r.1, r.2.withLoops s.frame.loops)) (inLoop_eq loop x) (inLoop_eq loop y)
    (fun _ => rfl) (fun _ _ => rfl) fun _ _ hr => hr

/-- A scope is opened in both or in neither. -/
theorem inScope {x y : Render α} (h : RelaxesNames x y) :
    RelaxesNames (inScope x) (inScope y) where
  errors s e he := by
    rw [inScope_eq]
    split
    · exact he
    · exact h.errors s.entered e he
  same s hs := by
    have hx := inScope_eq x s
    have hy := inScope_eq y s
    -- Either both may open the scope or neither may.
    by_cases hdeep : exceeds (s.progress.budget.depth + 1) s.progress.budget.depthCeiling = true
    · rw [if_pos hdeep] at hx hy
      exact hy.trans hx.symm
    · rw [if_neg hdeep] at hx hy
      rw [hx] at hs
      rw [hx, hy, h.same s.entered ⟨hs.raised, hs.recorded⟩]

/-- A render does not ask for the switches when it deals with an error. -/
theorem rescue (settings : Settings) (line : Option Nat) (blank : Bool) (e : Error) :
    RelaxesNames (rescue settings line blank e) (Render.rescue settings.lenient line blank e) where
  errors s e' he := by
    cases hp : settings.propagates e with
    | true =>
      rw [rescue_of_propagates hp]
      exact he
    | false =>
      rw [rescue_of_not_propagates hp]
      have hpushed : e' ∈ s.progress.errors.push (placed line e s) := Array.mem_push_of_mem _ he
      split <;> exact hpushed
  same _ _ := rfl

/-- An error that is dealt with is on record afterwards. -/
private theorem mem_errors_rescue {settings : Settings} {e : Error}
    (h : settings.propagates e = false) (line : Option Nat) (blank : Bool) (s : RenderState) :
    placed line e s ∈ (Render.rescue settings line blank e s).2.progress.errors := by
  rw [rescue_of_not_propagates h]
  have hpushed : placed line e s ∈ s.progress.errors.push (placed line e s) :=
    Array.mem_push_self
  split <;> exact hpushed

/-- Placing an error leaves it undefined or not. -/
private theorem isUndefined_placed (line : Option Nat) (e : Error) (s : RenderState) :
    (placed line e s).isUndefined = e.isUndefined := by
  simp only [Error.isUndefined, placed, Error.kind_inTemplate, Error.kind_atLine]

/-- An error that is dealt with unnoticed was not that of an undefined name. -/
private theorem isDefined_of_rescue {settings : Settings} {line : Option Nat} {blank : Bool}
    {e : Error} {s : RenderState}
    (h : Unnoticed (Render.rescue settings line blank e s).1
      (Render.rescue settings line blank e s).2) : e.isUndefined = false := by
  cases hp : settings.propagates e with
  | true =>
    rw [rescue_of_propagates hp] at h
    exact h.raised
  | false =>
    rw [← isUndefined_placed line e s]
    exact h.recorded _ (mem_errors_rescue hp line blank s)

/-- An error that is dealt with is recorded, so it was not undefined. -/
theorem rescuing {x y : Render Unit} (h : RelaxesNames x y) (settings : Settings)
    (line : Option Nat) (blank : Bool) :
    RelaxesNames (rescuing settings line blank x)
      (Render.rescuing settings.lenient line blank y) where
  errors s e he := by
    have hx := h.errors s e he
    cases hr : x s with
    | mk r t =>
      rw [hr] at hx
      cases r with
      | ok a =>
        rw [rescuing_of_ok hr]
        exact hx
      | error e' =>
        rw [rescuing_of_error hr]
        exact (rescue settings line blank e').errors t e hx
  same s hs := by
    have hy := h.same s
    cases hr : x s with
    | mk r t =>
      rw [hr] at hy
      cases r with
      | ok a =>
        rw [rescuing_of_ok hr] at hs ⊢
        exact rescuing_of_ok (hy ⟨trivial, hs.recorded⟩) line blank
      | error e =>
        rw [rescuing_of_error hr] at hs ⊢
        have hrescue := rescue settings line blank e
        -- The error is on record, and nothing that was recorded is undefined.
        have hrecorded : ∀ e' ∈ t.progress.errors, e'.isUndefined = false :=
          fun e' he => hs.recorded e' (hrescue.errors t e' he)
        rw [rescuing_of_error (hy ⟨isDefined_of_rescue hs, hrecorded⟩)]
        rfl

end RelaxesNames

/-- A render does the same without the switches, unless it notices an undefined name. -/
theorem Script.relaxesNames {σ : Settings} (h : σ.registry.RelaxesNames) {b : Bool} {α : Type}
    (x : Script b α) : RelaxesNames (x.run σ) (x.run σ.lenient) := by
  -- What is looked up in both views is the same until something undefined comes up.
  have hview (s : RenderState) : (σ.view s).FollowedBy Error.isUndefined (σ.lenient.view s) :=
    have hanswers : (σ.view s).answers.RelaxNames := h.answers
    View.followedBy_lenient hanswers
  induction x with
  | aside x h => exact .aside h
  | evaluate e => exact .look fun s => e.evaluate_follows (hview s)
  | pipeline p =>
    exact .look fun s => p.evaluate_follows (hview s) fun e he input args =>
      h.filters e he (σ.view s) input args h.answers
  | condition c => exact .look fun s => c.evaluate_follows (hview s)
  | score nodes => exact .charge _
  | emit text => exact .emit text
  | bindAll entries => exact ⟨fun _ _ he => he, fun _ _ => rfl⟩
  | assign name value => exact .bind (.charge _) fun _ => .modifyScopes _
  | bind x f ih ihf => exact ih.bind ihf
  | diverted x ih => exact ih.diverted
  | capture name x ih => exact ih.captured.bind fun text => .modifyScopes _
  | inScope x ih => exact ih.inScope
  | inTemplate name x ih => exact ih.inTemplate name
  | isolated template x ih => exact ih.isolated template
  | inLoop loop x ih => exact ih.inLoop loop
  | rescuing line blank x ih => exact ih.rescuing σ line blank

/-! ## Templates -/

/-- A document is rendered in the same way without the switches, unless that notices an undefined
name. -/
theorem Document.relaxesNames {σ : Settings} (h : σ.registry.RelaxesNames)
    (document : Document) :
    RelaxesNames (document.render σ) (document.render σ.lenient) := by
  have hwithin (levels : Nat) :
      RelaxesNames (renderWithin σ levels document) (renderWithin σ.lenient levels document) := by
    rw [← run_scriptWithin (b := false) (σ := σ) ⟨rfl, rfl⟩ levels document,
      ← run_scriptWithin (b := false) (σ := σ) (τ := σ.lenient) ⟨rfl, rfl⟩ levels document]
    exact (scriptWithin σ levels document).relaxesNames h
  exact ⟨fun s => (hwithin _).errors s, fun s => (hwithin _).same s⟩

namespace Template

variable {t : Template} {values : Object} {options : RenderOptions}

/-- If no error of an undefined name is kept, none was raised and none is on record. -/
private theorem unnoticed_of_keep {r : Except Error Unit} {s : RenderState}
    (hr : Meets (fun _ => True)
      (fun e => e.kind = .memory ∨ e.kind = .foreign ∨ e.kind = .crash) r)
    (h : ∀ e ∈ (t.keep r s).errors, e.isUndefined = false) : Unnoticed r s := by
  refine ⟨hr.mono (fun _ _ => trivial) fun e he => ?_, h⟩
  unfold Error.isUndefined
  rcases he with hk | hk | hk <;> rw [hk]

/-- A run that records nothing undefined is the same with lenient settings. -/
private theorem run_lenient (hregistry : t.registry.RelaxesNames)
    (h : ∀ e ∈ (t.run values options false).2.errors, e.isUndefined = false) :
    t.run values options.lenient false = t.run values options false := by
  cases hd : t.document with
  | none => rw [run_of_none hd, run_of_none hd]
  | some document =>
    let settings := options.settings t.registry t.parsing false
    let s := t.start values options
    have hcontained : Contained settings (document.render settings s).1 :=
      document.contained_render s
    -- A lenient run ends early only with an error that is no unknown name.
    have hending := hcontained.mono (fun _ h => h) fun _ he => (Settings.propagates_iff rfl).mp he
    have hrelaxes : RelaxesNames (document.render settings) (document.render settings.lenient) :=
      document.relaxesNames hregistry
    cases hr : document.render settings s with
    | mk r u =>
      have hsame := hrelaxes.same s
      rw [hr] at hending hsame
      rw [run_of_some hd hr] at h ⊢
      exact run_of_some hd (hsame (unnoticed_of_keep hending h))

/-- The errors of a run are among those of the render. -/
private theorem errors_of_render {P : Error → Prop}
    (h : ∀ e ∈ (t.render values options).2.errors, P e) :
    ∀ e ∈ (t.run values options false).2.errors, P e := by
  intro e he
  apply h
  cases hrun : t.run values options false with
  | mk r t' =>
    rw [hrun] at he
    cases r with
    | ok text =>
      rw [render_of_run_ok hrun]
      exact he
    | error e' =>
      rw [render_of_run_error hrun]
      -- Only a render that was given up records one error more than the run did.
      split
      · exact Array.mem_push_of_mem _ he
      · exact he

/-- With the standard filters, and objects that do not look at the switches, a render that records
no error of an undefined name does the same where names may be undefined: it has the same result,
records the same errors, and counts and stores the same. -/
theorem render_lenient (hstandard : t.registry.filters = Filter.standard)
    (hanswers : t.registry.answers.RelaxNames)
    (hdefined : ∀ e ∈ (t.render values options).2.errors, e.isUndefined = false) :
    t.render values options.lenient = t.render values options := by
  have hrun := run_lenient (.of_standard hstandard hanswers) (errors_of_render hdefined)
  unfold render
  rw [hrun]

/-- A strict render in which all names are defined, although one of them is divided by zero. -/
theorem render_lenient_divided :
    let options : RenderOptions := { strictVariables := true, strictFilters := true }
    let values : Object := [("a", .int 7)]
    let t : Template := (Template.parse {}
      "\x7b% assign b = a | plus: 1 %\x7d\x7b\x7b b \x7d\x7d\x7b\x7b a | divided_by: 0 \x7d\x7d").2
    t.registry.filters = Filter.standard ∧ t.registry.answers.RelaxNames
      ∧ (∀ e ∈ (t.render values options).2.errors, e.isUndefined = false)
      ∧ t.render values options.lenient = t.render values options
      ∧ (t.render values options).1.toOption = some "8Liquid error: divided by 0" := by
  intro options values t
  have hdefined : ∀ e ∈ (t.render values options).2.errors, e.isUndefined = false := by
    decide +kernel
  have houtput : (t.render values options).1.toOption = some "8Liquid error: divided by 0" := by
    decide +kernel
  have hstandard : t.registry.filters = Filter.standard :=
    congrArg Registry.filters (registry_parse _ _ _)
  have hanswers : t.registry.answers.RelaxNames :=
    (registry_parse _ _ _ : t.registry = Registry.standard) ▸ Answers.none_relaxNames
  exact ⟨hstandard, hanswers, hdefined, render_lenient hstandard hanswers hdefined, houtput⟩

end Template

end Stencil
