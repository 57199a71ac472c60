import Stencil.Proofs.Ledger

/-!
# Sessions

A host reads a template, sets its presets and ceilings and renders it, in any order and as often as
it likes. Of all this a render sees, behind the values that it is given, only what was stored last
under a name in the outermost scope of the template, and behind that the presets that were set last.

## Key definitions

- `Action`, `Template.after`: what a host does with a template, and where that leads
- `Template.history`: what the renders of a session stored
- `Template.answers`: what the host learns from them

## Key results

- `Template.get?_assigned_after`: what a template keeps is what was stored last
- `Template.answers_withWarnings`: the warnings of a template do not matter to its renders
- `Template.find?_after`: the precedence of values over a session
-/

namespace Stencil

open Assoc

/-- What a host does with a template. -/
inductive Action where
  | parse (source : String) (options : ParseOptions)
  | setPresets (presets : Object)
  /-- Sets the ceilings for the renders to come. -/
  | setBudget (budget : Budget)
  /-- Renders the template, and fails with the first error if that is to be strict. -/
  | render (strict : Bool) (values : Object) (options : RenderOptions)

namespace Action

/-- The presets that an action sets. -/
def presets? : Action → Option Object
  | setPresets presets => some presets
  | _ => none

/-- The presets that are set last, or those that were there before. -/
def lastPresets (presets : Object) (actions : List Action) : Object :=
  (actions.filterMap presets?).getLast?.getD presets

/-- Presets are those of the last action that sets them. -/
theorem lastPresets_cons (presets : Object) (action : Action) (actions : List Action) :
    lastPresets presets (action :: actions)
      = lastPresets (action.presets?.getD presets) actions := by
  unfold lastPresets
  cases h : action.presets? with
  | none => rw [List.filterMap_cons_none h]; rfl
  | some later => rw [List.filterMap_cons_some h, List.getLast?_cons]; rfl

end Action

/-- What a host learns from a render. -/
structure Answer where
  result : Except Error String
  errors : Array Error
  budget : Budget

namespace Template

/-- Renders a template strictly or not. -/
def renderAs (t : Template) (strict : Bool) (values : Object) (options : RenderOptions) :
    Except Error String × Template :=
  if strict then t.renderStrict values options else t.render values options

/-- The template after an action. -/
def act (t : Template) : Action → Template
  | .parse source options => (t.parse source options).2
  | .setPresets presets => { t with presets }
  | .setBudget budget => { t with budget }
  | .render strict values options => (t.renderAs strict values options).2

/-- The template after some actions. -/
def after (t : Template) (actions : List Action) : Template :=
  actions.foldl act t

/-- What an action stores in the outermost scope of the template. -/
def stores (t : Template) : Action → List (String × Value)
  | .render strict values options => bindings (t.points values options strict)
  | _ => []

/-- What some actions store in the outermost scope of the template, in order. -/
def history (t : Template) : List Action → List (String × Value)
  | [] => []
  | action :: actions => t.stores action ++ (t.act action).history actions

/-- What the host learns from the renders among some actions. -/
def answers (t : Template) : List Action → List Answer
  | [] => []
  | .render strict values options :: actions =>
    let r := t.renderAs strict values options
    ⟨r.1, r.2.errors, r.2.budget⟩ :: r.2.answers actions
  | action :: actions => (t.act action).answers actions

/-- What a name stands for when a render starts. -/
def find? (t : Template) (strict : Bool) (values : Object) (options : RenderOptions)
    (name : String) : Option Value :=
  let settings := options.settings t.registry t.parsing strict
  (settings.view (t.start values options)).find? name

/-! ## The start of a render -/

/-- The precedence of values at the start of a render. -/
theorem find?_eq (t : Template) (strict : Bool) (values : Object) (options : RenderOptions)
    (name : String) :
    t.find? strict values options name
      = (values.get? name).or ((t.assigned.get? name).or (t.presets.get? name)) := by
  have hfind : t.find? strict values options name
      = (get? (t.assigned.filter fun e => !values.binds e.1) name).or
          (Scopes.findIn? name [values, t.presets]) := rfl
  rw [hfind, get?_filter_not_binds]
  unfold binds Scopes.findIn? Scopes.findIn? Scopes.findIn?
  cases values.get? name with
  | some v => rfl
  | none => cases t.presets.get? name <;> rfl

/-! ## Single actions -/

section

variable (t : Template) (strict : Bool) (values : Object) (options : RenderOptions)

/-- How the errors of a render are shown changes nothing but its result and its errors. -/
theorem renderAs_eq : ∃ r errors,
    t.renderAs strict values options = (r, { (t.run values options strict).2 with errors }) := by
  cases strict with
  | true => exact ⟨_, _, rfl⟩
  | false =>
    show ∃ r errors, t.render values options = _
    -- A render that was given up differs from its run in the recorded errors only.
    unfold render
    cases t.run values options false with
    | mk r t' =>
      cases r with
      | ok output => exact ⟨_, _, rfl⟩
      | error e =>
        dsimp only
        split <;> exact ⟨_, _, rfl⟩

/-- A run leaves the presets as they are. -/
theorem presets_run : (t.run values options strict).2.presets = t.presets := by
  unfold run
  cases t.document <;> rfl

variable {t strict values options}

/-- What a render stored hides what was assigned before. Of that nothing is lost, although the
render did not see what was hidden by the values that were passed. -/
theorem get?_assigned_run (h : (keys t.assigned).Nodup) (name : String) :
    (t.run values options strict).2.assigned.get? name
      = (get? (bindings (t.points values options strict)).reverse name).or
          (t.assigned.get? name) := by
  unfold run points
  cases t.document with
  | none => rfl
  | some document =>
    let σ := options.settings t.registry t.parsing strict
    let s := t.start values options
    show get? (t.assigned.putAll (document.render σ s).2.frame.scopes.outer) name
      = (get? (bindings (document.points σ s)).reverse name).or (t.assigned.get? name)
    have houter : (document.render σ s).2.frame.scopes.outer
        = s.frame.scopes.outer.putAll (bindings (document.points σ s)) := (document.booked s).outer
    have hstart : (keys s.frame.scopes.outer).Nodup :=
      h.sublist (List.filter_sublist.map Prod.fst)
    have hseen : get? s.frame.scopes.outer name
        = if values.binds name then none else t.assigned.get? name := get?_filter_not_binds ..
    -- The scope binds each name once, so that to read it from its end is to look it up.
    rw [houter, get?_putAll, get?_reverse (nodup_keys_putAll hstart _), get?_putAll, hseen,
      Option.or_assoc]
    cases values.binds name <;> simp

theorem nodup_keys_assigned_run (h : (keys t.assigned).Nodup) :
    (keys (t.run values options strict).2.assigned).Nodup := by
  unfold run
  cases t.document with
  | none => exact h
  | some document => exact nodup_keys_putAll h _

end

variable {t : Template}

/-- Reading a source leaves alone what renders keep. -/
theorem assigned_parse (source : String) (options : ParseOptions) :
    (t.parse source options).2.assigned = t.assigned
      ∧ (t.parse source options).2.presets = t.presets := by
  unfold parse
  split <;> exact ⟨rfl, rfl⟩

/-- After an action a name holds what the action stored last, or what it held before. -/
theorem get?_assigned_act (h : (keys t.assigned).Nodup) (action : Action) (name : String) :
    (t.act action).assigned.get? name
      = (get? (t.stores action).reverse name).or (t.assigned.get? name) := by
  cases action with
  | parse source options => exact congrArg (get? · name) (assigned_parse source options).1
  | setPresets presets => rfl
  | setBudget budget => rfl
  | render strict values options =>
    obtain ⟨r, errors, hrender⟩ := t.renderAs_eq strict values options
    rw [act, hrender]
    exact get?_assigned_run h name

/-- No action stores a name twice. -/
theorem nodup_keys_assigned_act (h : (keys t.assigned).Nodup) (action : Action) :
    (keys (t.act action).assigned).Nodup := by
  cases action with
  | parse source options =>
    rw [act, (assigned_parse source options).1]
    exact h
  | setPresets presets => exact h
  | setBudget budget => exact h
  | render strict values options =>
    obtain ⟨r, errors, hrender⟩ := t.renderAs_eq strict values options
    rw [act, hrender]
    exact nodup_keys_assigned_run h

/-- An action sets the presets or leaves them. -/
theorem presets_act (action : Action) :
    (t.act action).presets = action.presets?.getD t.presets := by
  cases action with
  | parse source options => exact (assigned_parse source options).2
  | setPresets presets => rfl
  | setBudget budget => rfl
  | render strict values options =>
    obtain ⟨r, errors, hrender⟩ := t.renderAs_eq strict values options
    rw [act, hrender]
    exact t.presets_run strict values options

/-! ## Sessions -/

/-- The first action, and then the others. -/
theorem after_cons (action : Action) (actions : List Action) :
    t.after (action :: actions) = (t.act action).after actions := rfl

/-- One list of actions after the other. -/
theorem after_append (actions actions' : List Action) :
    t.after (actions ++ actions') = (t.after actions).after actions' :=
  List.foldl_append

/-- By induction on the actions. -/
theorem nodup_keys_assigned_after (h : (keys t.assigned).Nodup) (actions : List Action) :
    (keys (t.after actions).assigned).Nodup := by
  induction actions generalizing t with
  | nil => exact h
  | cons action actions ih => exact ih (nodup_keys_assigned_act h action)

/-- What a template keeps under a name is what was stored last. -/
theorem get?_assigned_after (h : (keys t.assigned).Nodup) (actions : List Action) (name : String) :
    (t.after actions).assigned.get? name
      = (get? (t.history actions).reverse name).or (t.assigned.get? name) := by
  induction actions generalizing t with
  | nil => rfl
  | cons action actions ih =>
    rw [after_cons, ih (nodup_keys_assigned_act h action), get?_assigned_act h, history,
      List.reverse_append, get?_append, Option.or_assoc]

/-- So it is with the presets. -/
theorem presets_after (actions : List Action) :
    (t.after actions).presets = Action.lastPresets t.presets actions := by
  induction actions generalizing t with
  | nil => rfl
  | cons action actions ih => rw [after_cons, ih, presets_act, Action.lastPresets_cons]

/-! ## Sources that cannot be read -/

/-- The template with other warnings. -/
def withWarnings (t : Template) (warnings : Array Error) : Template :=
  { t with warnings }

/-- Warnings make no difference to a run. -/
theorem run_withWarnings (w : Array Error) (values : Object) (options : RenderOptions)
    (strict : Bool) : (t.withWarnings w).run values options strict
      = ((t.run values options strict).1, (t.run values options strict).2.withWarnings w) := by
  unfold run
  cases hd : t.document with
  | none =>
    have hd' : (t.withWarnings w).document = none := hd
    rw [hd']
  | some document =>
    have hd' : (t.withWarnings w).document = some document := hd
    rw [hd']
    rfl

theorem renderAs_withWarnings (w : Array Error) (strict : Bool) (values : Object)
    (options : RenderOptions) : (t.withWarnings w).renderAs strict values options
      = ((t.renderAs strict values options).1,
          (t.renderAs strict values options).2.withWarnings w) := by
  cases strict with
  | true => exact run_withWarnings w values options true
  | false =>
    show (t.withWarnings w).render values options
      = ((t.render values options).1, (t.render values options).2.withWarnings w)
    unfold render
    rw [run_withWarnings]
    cases t.run values options false with
    | mk r t' =>
      cases r with
      | ok output => rfl
      | error e =>
        dsimp only
        split <;> rfl

theorem parse_withWarnings (w : Array Error) (source : String) (options : ParseOptions) :
    ∃ w', ((t.withWarnings w).parse source options).2
      = (t.parse source options).2.withWarnings w' := by
  unfold parse
  have hregistry : (t.withWarnings w).registry = t.registry := rfl
  rw [hregistry]
  split <;> exact ⟨_, rfl⟩

/-- The warnings of a template do not matter to its renders. -/
theorem answers_withWarnings (w : Array Error) (actions : List Action) :
    (t.withWarnings w).answers actions = t.answers actions := by
  -- For any warnings, since a source that is read brings its own.
  induction actions generalizing t w with
  | nil => rfl
  | cons action actions ih =>
    cases action with
    | parse source options =>
      obtain ⟨w', hparse⟩ := parse_withWarnings (t := t) w source options
      show ((t.withWarnings w).parse source options).2.answers actions = _
      rw [hparse]
      exact ih w'
    | setPresets presets => exact ih (t := { t with presets }) w
    | setBudget budget => exact ih (t := { t with budget }) w
    | render strict values options =>
      rw [answers, answers, renderAs_withWarnings]
      exact congrArg (_ :: ·) (ih w)

/-- A source that cannot be read changes nothing that a host learns from later renders. -/
theorem answers_of_parse_error {source : String} {options : ParseOptions}
    (h : (t.parse source options).1.isOk = false) (actions : List Action) :
    (t.act (.parse source options)).answers actions = t.answers actions := by
  rw [act]
  cases hp : t.parse source options with
  | mk r t' =>
    cases r with
    | ok a =>
      rw [hp] at h
      exact nomatch h
    | error e =>
      -- A source that cannot be parsed leaves its warnings behind, which no answer reads.
      rw [parse_of_error hp]
      exact answers_withWarnings t'.warnings actions

/-! ## Precedence -/

/-- What a template keeps under a name stays where nothing is stored under it. -/
theorem get?_assigned_after_of_notMem (h : (keys t.assigned).Nodup) {actions : List Action}
    {name : String} (hname : name ∉ keys (t.history actions)) :
    (t.after actions).assigned.get? name = t.assigned.get? name := by
  have hnone : get? (t.history actions).reverse name = none := by
    rw [← Option.not_isSome_iff_eq_none, ← mem_keys_iff, keys, List.map_reverse, List.mem_reverse]
    exact hname
  rw [get?_assigned_after h, hnone, Option.none_or]

/-- The precedence of values over a session. When a render starts, a name stands for the value that
is passed to it; else for the one that was stored last by a render before, or that was kept when
the session began; else for the preset. Passing a name stores nothing and erases nothing: where no
render stored anything under it, it stands for what it did before. And a source that cannot be read
changes nothing that the host learns from later renders. -/
theorem find?_after (h : t.assigned.keys.Nodup) (actions : List Action) :
    (∀ strict values options name,
      (t.after actions).find? strict values options name
        = (values.get? name).or
            (((get? (t.history actions).reverse name).or (t.assigned.get? name)).or
              ((Action.lastPresets t.presets actions).get? name)))
    ∧ (∀ later name, name ∉ keys ((t.after actions).history later) →
        ∀ strict values options, values.get? name = none →
          ((t.after actions).after later).find? strict values options name
            = ((t.after actions).assigned.get? name).or
                ((Action.lastPresets t.presets (actions ++ later)).get? name))
    ∧ (∀ source options, ((t.after actions).parse source options).1.isOk = false →
        ∀ later, ((t.after actions).act (.parse source options)).answers later
          = (t.after actions).answers later) := by
  refine ⟨fun strict values options name => ?_, fun later name hname strict values options hv => ?_,
    fun source options hp later => answers_of_parse_error hp later⟩
  · rw [find?_eq, get?_assigned_after h, presets_after]
  · have hkept := get?_assigned_after_of_notMem (nodup_keys_assigned_after h actions) hname
    rw [find?_eq, hv, Option.none_or, hkept, ← after_append, presets_after]

/-- A preset, then what was assigned behind it, and a value that hides both for one render. -/
theorem find?_after_persistence :
    let output := "\x7b\x7b x \x7d\x7d"
    let assignment := "\x7b% assign x = 'assigned' %\x7d"
    let unfinished := "\x7b% if %\x7d"
    let t : Template := {}
    let actions : List Action := [.parse (output ++ assignment) {},
      .setPresets [("x", .str "preset")], .render false [] {}]
    let later : List Action := [.parse output {}, .render true [("x", .str "arg")] {},
      .render false [] {}]
    t.assigned.keys.Nodup
      ∧ keys (t.history actions) = ["x"]
      ∧ "x" ∉ keys ((t.after actions).history later)
      ∧ ((t.after actions).after later).find? false [] {} "x"
          = ((t.after actions).assigned.get? "x").or
              ((Action.lastPresets t.presets (actions ++ later)).get? "x")
      ∧ ((t.after actions).parse unfinished {}).1.isOk = false
      ∧ ((t.after actions).act (.parse unfinished {})).answers later
          = (t.after actions).answers later
      ∧ (t.answers (actions ++ later)).map (·.result.toOption)
          = [some "preset", some "arg", some "assigned"] := by
  intro output assignment unfinished t actions later
  have hkeys : t.assigned.keys.Nodup := List.nodup_nil
  have hsession := find?_after hkeys actions
  -- The assignment stores `x`, and later renders store nothing.
  have hstored : keys (t.history actions) = ["x"] := by decide +kernel
  have hnothing : "x" ∉ keys ((t.after actions).history later) := by decide +kernel
  have hfailed : ((t.after actions).parse unfinished {}).1.isOk = false := by decide +kernel
  have houtput : (t.answers (actions ++ later)).map (·.result.toOption)
      = [some "preset", some "arg", some "assigned"] := by decide +kernel
  exact ⟨hkeys, hstored, hnothing, hsession.2.1 later "x" hnothing false [] {} rfl, hfailed,
    hsession.2.2 _ _ hfailed later, houtput⟩

end Template

end Stencil
