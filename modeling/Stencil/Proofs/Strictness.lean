import Stencil.Proofs.Lockstep

/-!
# Errors that end a render

A strict render ends at its first error. Any other one goes on after all errors but those of an
exhausted budget and those of the host, unless it crashes. The two are built alike, so they do the
same up to the first error that is dealt with, and with that one the strict render fails. A render
that deals with no error is therefore what a strict one is.

## Key results

- `Body.contained_render`: what a body fails with ends the render
- `Versions.Alike.stopsAtFirst`: steps up to the first error that is dealt with
- `Template.renderStrict_of_render`: whole renders
-/

namespace Stencil

open Render

/-! ## What ends a render -/

/-- If the outcome is an error, it is one that ends the render. -/
abbrev Contained {α : Type} (settings : Settings) : Except Error α → Prop :=
  Meets (fun _ => True) (settings.propagates · = true)

namespace Settings

/-- An error of the budget is never dealt with. -/
theorem propagates_overBudget (settings : Settings) : settings.propagates .overBudget = true := by
  have hkind : (Error.overBudget.kind == ErrorKind.memory) = true := rfl
  unfold propagates
  rw [hkind, Bool.or_true, Bool.true_or, Bool.true_or]

/-- Without rethrowing, an error ends a render if the budget is exhausted, the host failed or the
render crashes. -/
theorem propagates_iff {settings : Settings} (h : settings.rethrow = false) {e : Error} :
    settings.propagates e = true ↔ e.kind = .memory ∨ e.kind = .foreign ∨ e.kind = .crash := by
  simp [propagates, h, or_assoc]

/-- Nor is any error where errors are rethrown. -/
theorem propagates_of_rethrow {settings : Settings} (h : settings.rethrow = true) (e : Error) :
    settings.propagates e = true := by
  unfold propagates
  rw [h, Bool.true_or, Bool.true_or, Bool.true_or]

end Settings

section

variable {settings : Settings} {partials : PartialRenderer}

/-- Where only the budget fails, errors are contained. -/
private theorem contained_of_overBudget {r : Except Error Unit}
    (h : Meets (fun _ => True) (· = .overBudget) r) : Contained settings r :=
  h.mono (fun _ h => h) fun _ h => h ▸ settings.propagates_overBudget

/-- What is left of an error that was dealt with is contained. -/
theorem contained_rescuing (line : Option Nat) (blank : Bool) (x : Render Unit)
    (s : RenderState) : Contained settings (rescuing settings line blank x s).1 := by
  cases h : x s with
  | mk r t =>
    cases r with
    | ok a =>
      rw [rescuing_of_ok h]
      trivial
    | error e =>
      rw [rescuing_of_error h]
      exact meets_rescue settings.propagates_overBudget id line blank t

/-- A node deals with its errors. -/
theorem Node.contained_render (node : Node) (s : RenderState) :
    Contained settings (node.render settings partials s).1 := by
  cases node with
  -- A text is not rescued, but its only errors are those of the budget.
  | text text =>
    have hemit : (emit text).Ensures (fun _ => True) (settings.propagates · = true) :=
      fun s => contained_of_overBudget (meets_emit text s)
    exact hemit.bind (fun _ _ => .pure trivial) s
  | output p =>
    exact Attempt.Ensures.bind (contained_rescuing p.line false _)
      (fun _ _ => .pure trivial) s
  | tag tag =>
    refine Attempt.Ensures.bind (contained_rescuing tag.line tag.isBlank _) (fun _ _ => ?_) s
    exact .bind (P := fun _ => True) (fun _ => trivial) fun _ _ => .pure trivial

/-- So do nodes, one after the other. -/
theorem Node.contained_renderAll (nodes : List Node) :
    ∀ s, Contained settings (Node.renderAll settings partials nodes s).1 := by
  induction nodes with
  | nil => exact fun _ => trivial
  | cons node nodes ih =>
    intro s
    rw [Node.renderAll_cons]
    refine Attempt.Ensures.bind (fun s => node.contained_render s) (fun more _ => ?_) s
    cases more with
    | true => exact ih
    | false => exact .pure trivial

/-- Whatever a body fails with ends the render. All other errors of its nodes were dealt with. -/
theorem Body.contained_render (body : Body) (s : RenderState) :
    Contained settings (body.render settings partials s).1 := by
  cases body with
  | mk nodes blank =>
    rw [Body.render]
    refine Attempt.Ensures.bind (P := fun _ => True) (fun s => ?_)
      (fun _ _ => Node.contained_renderAll nodes) s
    exact contained_of_overBudget (meets_charge (.score nodes.length) s)

/-- So does a document. -/
theorem Document.contained_render (document : Document) (s : RenderState) :
    Contained settings (document.render settings s).1 := by
  unfold Document.render
  cases s.progress.budget.scopesLeft with
  | zero => exact Body.contained_render document s
  | succ levels => exact Body.contained_render document s

end

/-! ## The first error -/

/-- What a strict step does if another one recorded the errors `added`: the same if there are none,
and otherwise it fails with the first of them. -/
def EndsAtFirst {α σ : Type} :
    (added : List Error) → (lenient strict : Except Error α × σ) → Prop
  | [], lenient, strict => strict = lenient
  | recorded :: _, _, strict =>
    ∃ e, strict.1 = .error e ∧ e.kind = recorded.kind ∧ e.message = recorded.message

namespace EndsAtFirst

variable {α σ : Type} {errors : Array Error} {lenient strict : Except Error α × σ}

/-- Without an error both runs are the same. -/
theorem of_empty (h : EndsAtFirst errors.toList lenient strict) (hempty : errors = #[]) :
    strict = lenient := by
  rw [hempty] at h
  exact h

/-- With one, the strict run ends at it. -/
theorem of_first (h : EndsAtFirst errors.toList lenient strict) {recorded : Error}
    (hfirst : errors[0]? = some recorded) :
    ∃ e, strict.1 = .error e ∧ e.kind = recorded.kind ∧ e.message = recorded.message := by
  rw [← Array.getElem?_toList] at hfirst
  cases hlist : errors.toList with
  | nil =>
    rw [hlist] at hfirst
    exact nomatch hfirst
  | cons first rest =>
    rw [hlist] at h hfirst
    obtain rfl : first = recorded := Option.some.inj hfirst
    exact h

end EndsAtFirst

/-- In a state, `y` does what `x` does up to the first error that `x` records. -/
def StopsAtFirst {α : Type} (x y : Render α) (s : RenderState) : Prop :=
  ∃ added, (x s).2.progress.errors.toList = s.progress.errors.toList ++ added
    ∧ EndsAtFirst added (x s) (y s)

namespace StopsAtFirst

variable {α β : Type} {s : RenderState}

/-- A step that records nothing and is the same for both. -/
theorem of_eq {x y : Render α} (h : y s = x s)
    (herrors : (x s).2.progress.errors = s.progress.errors) : StopsAtFirst x y s :=
  ⟨[], by rw [herrors, List.append_nil], h⟩

/-- One step after the other: the second counts only where nothing was recorded by the first. -/
theorem bind {x y : Render α} {f g : α → Render β} (hx : StopsAtFirst x y s)
    (hf : ∀ a t, x s = (.ok a, t) → StopsAtFirst (f a) (g a) t) :
    StopsAtFirst (x >>= f) (y >>= g) s := by
  obtain ⟨added, herrors, hends⟩ := hx
  cases hr : x s with
  | mk r t =>
    rw [hr] at herrors hends
    cases r with
    | error e =>
      -- The lenient step fails itself, so nothing more is recorded.
      refine ⟨added, ?_, ?_⟩
      · rw [Attempt.bind_of_error hr]
        exact herrors
      · rw [Attempt.bind_of_error hr]
        cases added with
        | nil => exact Attempt.bind_of_error hends g
        | cons recorded added =>
          obtain ⟨e', hy, hsame⟩ := hends
          exact ⟨e', by rw [Attempt.bind_of_error (Prod.ext hy rfl)], hsame⟩
    | ok a =>
      obtain ⟨added', herrors', hends'⟩ := hf a t hr
      refine ⟨added ++ added', ?_, ?_⟩
      · rw [Attempt.bind_of_ok hr, herrors', herrors, List.append_assoc]
      · rw [Attempt.bind_of_ok hr]
        cases added with
        | nil =>
          -- Both have done the same so far.
          rw [Attempt.bind_of_ok hends]
          exact hends'
        | cons recorded added =>
          -- The strict step has failed already, so what follows makes no difference.
          obtain ⟨e', hy, hsame⟩ := hends
          exact ⟨e', by rw [Attempt.bind_of_error (Prod.ext hy rfl)], hsame⟩

/-- A step inside something that is opened before it and closed behind it. -/
theorem within {x y : Render α} {x' y' : Render β} {opened : RenderState}
    (h : StopsAtFirst x y opened) (hopened : opened.progress.errors = s.progress.errors)
    (hclosed : (x' s).2.progress.errors = (x opened).2.progress.errors)
    (hsame : y opened = x opened → y' s = x' s)
    (hfails : ∀ e, (y opened).1 = .error e → (y' s).1 = .error e) : StopsAtFirst x' y' s := by
  obtain ⟨added, herrors, hends⟩ := h
  refine ⟨added, by rw [hclosed, herrors, hopened], ?_⟩
  -- With no error recorded both runs go on alike, else the strict one has ended.
  cases added with
  | nil => exact hsame hends
  | cons recorded added =>
    obtain ⟨e, hy, hrecorded⟩ := hends
    exact ⟨e, hfails e hy, hrecorded⟩

/-- Dealing with an error records it, or ends both renders with it. -/
theorem rescue {settings settings' : Settings} (hstrict : settings'.rethrow = true)
    (line : Option Nat) (blank : Bool) (e : Error) (s : RenderState) :
    StopsAtFirst (Render.rescue settings line blank e) (Render.rescue settings' line blank e)
      s := by
  have hy := rescue_of_propagates (settings'.propagates_of_rethrow hstrict e) line blank s
  -- What the lenient run hands on, the strict one hands on as well.
  cases hp : settings.propagates e with
  | true =>
    have hx := rescue_of_propagates hp line blank s
    exact of_eq (hy.trans hx.symm) (by rw [hx])
  | false =>
    refine ⟨[placed line e s], ?_, e, by rw [hy], ?_, ?_⟩
    · rw [rescue_of_not_propagates hp]
      split <;> exact Array.toList_push
    · simp [placed]
    · simp [placed]

/-- Where the one run deals with an error, the other one ends. -/
theorem rescuing {settings settings' : Settings} (hstrict : settings'.rethrow = true)
    (line : Option Nat) (blank : Bool) {x y : Render Unit} (h : StopsAtFirst x y s) :
    StopsAtFirst (Render.rescuing settings line blank x) (Render.rescuing settings' line blank y)
      s := by
  obtain ⟨added, herrors, hends⟩ := h
  cases hr : x s with
  | mk r t =>
    rw [hr] at herrors hends
    have hrescue (e : Error) : StopsAtFirst (Render.rescue settings line blank e)
        (Render.rescue settings' line blank e) t := .rescue hstrict line blank e t
    cases added with
    | nil =>
      -- Nothing was recorded so far, so both deal with the same error, if there is one.
      have hends : y s = (r, t) := hends
      cases r with
      | ok a =>
        refine ⟨[], ?_, ?_⟩
        · rw [rescuing_of_ok hr]
          exact herrors
        · rw [rescuing_of_ok hr, rescuing_of_ok hends]
          rfl
      | error e =>
        obtain ⟨added', herrors', hends'⟩ := hrescue e
        refine ⟨added', ?_, ?_⟩
        · rw [rescuing_of_error hr, herrors', herrors, List.append_nil]
        · rw [rescuing_of_error hr, rescuing_of_error hends]
          exact hends'
    | cons recorded added =>
      -- The strict step has failed, and its error is passed on.
      obtain ⟨e', hy, hsame⟩ := hends
      have hfails : (Render.rescuing settings' line blank y s).1 = .error e' := by
        rw [rescuing_of_error (Prod.ext hy rfl),
          rescue_of_propagates (settings'.propagates_of_rethrow hstrict e')]
      cases r with
      | ok a =>
        refine ⟨recorded :: added, ?_, e', hfails, hsame⟩
        rw [rescuing_of_ok hr]
        exact herrors
      | error e =>
        obtain ⟨added', herrors', -⟩ := hrescue e
        refine ⟨recorded :: added ++ added', ?_, e', hfails, hsame⟩
        rw [rescuing_of_error hr, herrors', herrors, List.append_assoc]

end StopsAtFirst

/-- If the second version is strict, it does what the first one does up to the first error that is
recorded. -/
theorem Versions.Alike.stopsAtFirst {v : Versions} {α : Type} {x y : Render α} {Q : α → Prop}
    (h : v.Alike x y Q) (hstrict : v.rethrow = true) (hdiffers : ∀ x y, ¬v.Differs x y)
    (hbudget : v.E .overBudget) (hdeep : v.E .tooDeep) :
    ∀ s, s.frame.Admits v.V → StopsAtFirst x y s := by
  induction h with
  | quiet hq => exact fun s hs => .of_eq rfl (hq s hs).errors
  | bind hx hf ihx ihf =>
    intro s hs
    have hsound := hx.sound hbudget hdeep s hs
    refine (ihx s hs).bind fun a t ht => ?_
    rw [ht] at hsound
    exact ihf a hsound.1 t hsound.2
  | charge _ => exact fun s _ => .of_eq rfl rfl
  | emit text => exact fun s _ => .of_eq rfl rfl
  | diverted _ ih =>
    intro s hs
    refine (ih (s.withOutput "") hs).within rfl rfl (fun h => ?_) fun e he => ?_
    · rw [diverted_eq, diverted_eq, h]
    · rw [diverted_eq, he]
      rfl
  | captured _ ih =>
    intro s hs
    refine (ih (s.beginCapture.withOutput "") hs).within rfl rfl (fun h => ?_) fun e he => ?_
    · rw [captured_eq, captured_eq, diverted_eq, diverted_eq, h]
    · rw [captured_eq, diverted_eq, he]
      rfl
  | @inScope α x y Q _ ih =>
    intro s hs
    have hx := inScope_eq x s
    have hy := inScope_eq y s
    -- A scope that would be too deep is refused to both.
    by_cases hdeep : exceeds (s.progress.budget.depth + 1) s.progress.budget.depthCeiling = true
    · rw [if_pos hdeep] at hx hy
      exact .of_eq (hy.trans hx.symm) (by rw [hx])
    · rw [if_neg hdeep] at hx hy
      refine (ih s.entered hs.push).within rfl (by rw [hx]; rfl) (fun h => ?_) fun e he => ?_
      · rw [hx, hy, h]
      · rw [hy, he]
  | inTemplate name _ ih =>
    intro s hs
    refine (ih (s.withTemplate (some name))
      ⟨hs.inner, hs.outer, hs.environments, hs.loops⟩).within rfl rfl (fun h => ?_) fun e he => ?_
    · rw [inTemplate_eq, inTemplate_eq, h]
    · rw [inTemplate_eq, he]
  | isolated template _ ih =>
    intro s _
    refine (ih (s.withFrame (s.frame.isolated template)) (.isolated template)).within rfl rfl
      (fun h => ?_) fun e he => ?_
    · rw [isolated_eq, isolated_eq, h]
    · rw [isolated_eq, he]
  | @inLoop _ _ _ _ loop hloop _ ih =>
    intro s hs
    refine (ih (s.withLoops (loop :: s.frame.loops))
      (hs.withLoops (List.forall_mem_cons.mpr ⟨hloop, hs.loops⟩))).within rfl rfl
      (fun h => ?_) fun e he => ?_
    · rw [inLoop_eq, inLoop_eq, h]
    · rw [inLoop_eq, he]
  | rescuing line blank _ ih => exact fun s hs => (ih s hs).rescuing hstrict line blank
  | differs hd _ => exact absurd hd (hdiffers _ _)

/-- Whatever is alike but for the rethrowing ends at its first error. -/
theorem Versions.Alike.stopsAtFirst_strict {settings : Settings} {α : Type} {x y : Render α}
    {Q : α → Prop} (h : (Versions.rethrowing settings true).Alike x y Q) (s : RenderState) :
    StopsAtFirst x y s := by
  have hE (e : Error) : (Versions.rethrowing settings true).E e := ⟨⟩
  exact h.stopsAtFirst rfl (fun _ _ => id) (hE .overBudget) (hE .tooDeep) s (.trivial s.frame)

/-- A document is rendered by a strict render as by any other, up to the first error. -/
theorem Document.stopsAtFirst_render (settings : Settings) (document : Document)
    (s : RenderState) :
    StopsAtFirst (document.render settings)
      (document.render { settings with rethrow := true }) s := by
  let v := Versions.rethrowing settings true
  have hg : Unaware v.Unseen v.settings v.V v.E := .trivial settings
  exact (Document.alike_renderWithin hg s.progress.budget.scopesLeft document).stopsAtFirst_strict s

/-! ## Templates -/

/-- The templates that a host can have: made from a registry, given sources, presets and ceilings,
and rendered. -/
inductive Template.Reachable : Template → Prop where
  | new (registry : Registry) : Reachable { registry }
  | parse {t : Template} (source : String) (options : ParseOptions) :
      Reachable t → Reachable (t.parse source options).2
  | preset {t : Template} (presets : Object) : Reachable t → Reachable { t with presets }
  | limit {t : Template} (budget : Budget) : Reachable t → Reachable { t with budget }
  | render {t : Template} (values : Object) (options : RenderOptions) :
      Reachable t → Reachable (t.render values options).2
  | renderStrict {t : Template} (values : Object) (options : RenderOptions) :
      Reachable t → Reachable (t.renderStrict values options).2

namespace Template

variable {t : Template} {values : Object} {options : RenderOptions} {rethrow : Bool}

/-- Without a document nothing is rendered. -/
theorem run_of_none (h : t.document = none) : t.run values options rethrow = (.ok "", t) := by
  unfold run
  rw [h]

/-- With one, it is rendered from the state that the template starts in. -/
theorem run_of_some {document : Document} (h : t.document = some document) {r : Except Error Unit}
    {s : RenderState}
    (hr : document.render (options.settings t.registry t.parsing rethrow)
      (t.start values options) = (r, s)) :
    t.run values options rethrow = (r.map fun _ => s.progress.output, t.keep r s) := by
  unfold run
  rw [h]
  dsimp only
  rw [hr]

/-- A run that ends well is the render. -/
theorem render_of_run_ok {text : String} {t' : Template}
    (h : t.run values options false = (.ok text, t')) :
    t.render values options = (.ok text, t') := by
  unfold Template.render
  rw [h]

/-- One that fails is an error, or an error text if it is one of the budget. -/
theorem render_of_run_error {e : Error} {t' : Template}
    (h : t.run values options false = (.error e, t')) :
    t.render values options = if e.kind = .memory then
        (.ok e.text, { t' with errors := t'.errors.push e })
      else (.error e, t') := by
  unfold Template.render
  rw [h]

/-- Rendering ends with no error but those of an exhausted budget and those of the host, unless it
crashes. -/
theorem contained_run (t : Template) (values : Object) (options : RenderOptions) :
    Meets (fun _ => True) (fun e => e.kind = .memory ∨ e.kind = .foreign ∨ e.kind = .crash)
      (t.run values options false).1 := by
  cases hd : t.document with
  | none =>
    rw [run_of_none hd]
    trivial
  | some document =>
    rw [run_of_some hd rfl]
    -- A lenient render rethrows nothing, which leaves few kinds of errors.
    let settings := options.settings t.registry t.parsing false
    have hcontained : Contained settings (document.render settings (t.start values options)).1 :=
      document.contained_render _
    exact (hcontained.mono (fun _ h => h) fun _ he => (Settings.propagates_iff rfl).mp he).map
      fun _ _ => trivial

/-- A render fails only with errors of the host, unless it crashes. -/
theorem run_of_render_error {e : Error} (h : (t.render values options).1 = .error e) :
    (t.run values options false).1 = .error e ∧ (e.kind = .foreign ∨ e.kind = .crash) := by
  have hcontained := contained_run t values options
  cases hrun : t.run values options false with
  | mk r t' =>
    rw [hrun] at hcontained
    cases r with
    | ok text =>
      rw [render_of_run_ok hrun] at h
      exact nomatch h
    | error e' =>
      rw [render_of_run_error hrun] at h
      by_cases hk : e'.kind = .memory
      · -- An exhausted budget is shown in the output.
        rw [if_pos hk] at h
        exact nomatch h
      · rw [if_neg hk] at h
        obtain rfl : e' = e := Except.error.inj h
        exact ⟨rfl, hcontained.resolve_left hk⟩

/-- A run keeps the document. -/
theorem document_run (t : Template) (values : Object) (options : RenderOptions) (rethrow : Bool) :
    (t.run values options rethrow).2.document = t.document := by
  cases h : t.document with
  | none => rw [run_of_none h, h]
  | some document =>
    rw [run_of_some h rfl]
    exact h

theorem document_render (t : Template) (values : Object) (options : RenderOptions) :
    (t.render values options).2.document = t.document := by
  have hrun := document_run t values options false
  cases h : t.run values options false with
  | mk r t' =>
    rw [h] at hrun
    cases r with
    | ok text => rw [render_of_run_ok h, hrun]
    | error e =>
      rw [render_of_run_error h]
      split <;> exact hrun

/-- Without a document there are no errors. -/
theorem Reachable.errors_of_none (h : t.Reachable) (hd : t.document = none) :
    t.errors = #[] := by
  -- By induction on the history: without a document there was neither a reading that went well nor
  -- a run.
  induction h with
  | new registry => rfl
  | @parse t source options _ ih =>
    unfold Template.parse at hd ⊢
    cases hread : Document.parse (.ofOptions t.registry options) source {} with
    | mk r s =>
      rw [hread] at hd
      cases r with
      | ok document => exact nomatch hd
      | error e => exact ih hd
  | preset _ _ ih => exact ih hd
  | limit _ _ ih => exact ih hd
  | @render t values options _ ih =>
    have hd : t.document = none := (document_render t values options).symm.trans hd
    rw [render_of_run_ok (run_of_none hd)]
    exact ih hd
  | @renderStrict t values options _ ih =>
    have hd : t.document = none := (document_run t values options true).symm.trans hd
    unfold Template.renderStrict
    rw [run_of_none hd]
    exact ih hd

/-- A strict render of a template ends with the first error that another one records. -/
private theorem endsAtFirst_run (ht : t.Reachable) (values : Object) (options : RenderOptions) :
    EndsAtFirst (t.run values options false).2.errors.toList (t.run values options false)
      (t.run values options true) := by
  cases hd : t.document with
  | none =>
    rw [run_of_none hd, run_of_none hd, ht.errors_of_none hd]
    rfl
  | some document =>
    let settings := options.settings t.registry t.parsing false
    have hx : t.run values options false = _ := run_of_some hd rfl
    obtain ⟨added, herrors, hends⟩ :=
      document.stopsAtFirst_render settings (t.start values options)
    -- Nothing is recorded when a render starts.
    have hadded : (t.run values options false).2.errors.toList = added := by
      rw [hx]
      exact herrors
    rw [hadded]
    cases added with
    | nil =>
      have hy : t.run values options true = _ := run_of_some hd hends
      exact hy.trans hx.symm
    | cons recorded added =>
      obtain ⟨e, hy, hsame⟩ := hends
      have hy : t.run values options true = _ := run_of_some hd (Prod.ext hy rfl)
      exact ⟨e, by rw [hy]; rfl, hsame⟩

/-- A render without errors is what a strict render is: it has the same result and leaves the same
template behind. If there are errors, a strict render fails with what the first of them says. A
render itself fails only with errors of the host, or does not return because it crashes. -/
theorem renderStrict_of_render (ht : t.Reachable) (values : Object) (options : RenderOptions) :
    ((t.render values options).2.errors = #[] →
        t.renderStrict values options = t.render values options)
      ∧ (∀ recorded, (t.render values options).2.errors[0]? = some recorded →
          ∃ e, (t.renderStrict values options).1 = .error e
            ∧ e.kind = recorded.kind ∧ e.message = recorded.message)
      ∧ ∀ e, (t.render values options).1 = .error e →
          e.kind = .foreign ∨ e.kind = .crash := by
  have hends := endsAtFirst_run ht values options
  have hstrict : t.renderStrict values options = t.run values options true := rfl
  refine and_assoc.mp ⟨?_, fun e he => (run_of_render_error he).2⟩
  rw [hstrict]
  cases hrun : t.run values options false with
  | mk r t' =>
    rw [hrun] at hends
    cases r with
    | ok text =>
      rw [render_of_run_ok hrun]
      exact ⟨hends.of_empty, fun _ => hends.of_first⟩
    | error e =>
      rw [render_of_run_error hrun]
      by_cases hk : e.kind = .memory
      · -- The error becomes the output and the last of the errors, which may be the first.
        rw [if_pos hk]
        refine ⟨fun hempty => (Array.push_ne_empty hempty).elim, fun recorded hfirst => ?_⟩
        have hfirst : (t'.errors.push e)[0]? = some recorded := hfirst
        by_cases hempty : t'.errors = #[]
        · rw [hempty] at hfirst
          obtain rfl : e = recorded := Option.some.inj hfirst
          exact ⟨e, by rw [hends.of_empty hempty], rfl, rfl⟩
        · have hpos : 0 < t'.errors.size := Array.size_pos_iff.mpr hempty
          rw [Array.getElem?_push, if_neg (Nat.ne_of_lt hpos)] at hfirst
          exact hends.of_first hfirst
      · rw [if_neg hk]
        exact ⟨hends.of_empty, fun _ => hends.of_first⟩

/-- A strict render fails with the division by zero that another one shows in its place. -/
theorem renderStrict_of_render_divided :
    let t : Template := (Template.parse {} "a\x7b\x7b 1 | divided_by: 0 \x7d\x7db").2
    t.Reachable
      ∧ (∃ recorded, (t.render []).2.errors[0]? = some recorded ∧ recorded.kind = .zeroDivision)
      ∧ ∃ e, (t.renderStrict []).1 = .error e ∧ e.kind = .zeroDivision := by
  intro t
  have ht : t.Reachable := .parse _ _ (.new .standard)
  have hkinds : ((t.render []).2.errors[0]?).map Error.kind = some .zeroDivision := by
    decide +kernel
  obtain ⟨recorded, hfirst, hkind⟩ := Option.map_eq_some_iff.mp hkinds
  obtain ⟨e, he, hsame, -⟩ := (renderStrict_of_render ht [] {}).2.1 recorded hfirst
  exact ⟨ht, ⟨recorded, hfirst, hkind⟩, e, he, hsame.trans hkind⟩

end Template

end Stencil
