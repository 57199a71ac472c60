import Stencil.Proofs.HostErrors

/-!
# Errors of the standard filters

A standard filter gives a value within which nothing raises an error of the host, if there
is nothing of the kind within what it is given. So renders with these filters whose data raises no
such error come across none.

## Key definitions

- `Template.HostAvoids`: nothing that the host supplies raises an error that is bad

## Key results

- `Filter.standard_avoids`: all standard filters
- `Grounds.avoids`: renders where nothing that the host supplies raises a bad error
-/

namespace Stencil

variable {bad : Error → Bool}

/-- Nothing within the arguments raises an error that is bad. -/
structure Arguments.Avoid (bad : Error → Bool) (args : Arguments) : Prop where
  positional : ∀ v ∈ args.positional, v.avoids bad = true
  keywords : ∀ e ∈ args.keywords, e.2.avoids bad = true

/-- The filter raises no error that is bad and makes nothing that does. -/
def Filter.Avoids (bad : Error → Bool) (f : Filter) : Prop :=
  ∀ view input args, view.Avoids bad → input.avoids bad = true → args.Avoid bad →
    Stencil.Avoids bad (f.run view input args)

/-- No standard filter raises an error of the host, or makes anything that does. -/
theorem Filter.standard_avoids (hbad : HostOnly bad) (hcrash : bad .crash = false) :
    ∀ e ∈ Filter.standard, Filter.Avoids bad e.2 :=
  fun e he view input args hview hinput hargs =>
    Filter.standard_keeps (Hereditary.avoids hbad) e he view input args hview hinput
      ⟨hargs.positional, hargs.keywords⟩ fun _ => Error.avoids_of_eq_false hcrash

/-! ## Renders -/

/-- The data of a render, the code of its objects and its file system raise no error that is
bad. -/
structure Template.HostAvoids (bad : Error → Bool) (t : Template) (values : Object) : Prop where
  values : Value.entriesAvoid bad values = true
  presets : Value.entriesAvoid bad t.presets = true
  assigned : Value.entriesAvoid bad t.assigned = true
  answers : t.registry.answers.Avoid bad
  files : ∀ name e, t.registry.files name = .error e → bad e = false

/-- That a file is missing is an error of the engine. -/
theorem FileSystem.ofFiles_avoid (hbad : HostOnly bad) {files : Assoc String} {name : String}
    {e : Error} (h : ofFiles files name = .error e) : bad e = false := by
  unfold ofFiles at h
  split at h
  · cases h
  · cases h
    exact hbad _ (by simp) (by simp) (by simp) rfl rfl

/-- A partial is read without an error that is bad if its source is. -/
theorem readPartial_avoids {settings : Settings}
    (hfiles : ∀ name e, settings.registry.files name = .error e → bad e = false)
    (hparse : ∀ options source, FailsAvoiding bad
      (Document.parse (.ofOptions settings.registry options) source {}).1) (name : String) :
    FailsAvoiding bad (settings.readPartial name) := by
  unfold Settings.readPartial
  cases hfile : settings.registry.files name with
  | error e => exact Error.avoids_of_eq_false (hfiles name e hfile)
  | ok source => exact hparse { settings.parsing with name := some name } source

/-- What can be seen in a frame where nothing raises an error that is bad. -/
theorem Frame.Admits.view_avoids {settings : Settings}
    (hanswers : settings.registry.answers.Avoid bad) {s : RenderState}
    (hs : s.frame.Admits fun v => v.avoids bad = true) :
    (settings.view s).Avoids bad where
  find _ _ hv := hs.find? hv
  answers := hanswers _ fun _ _ hv => hs.find? hv

/-- A render whose data, filters and files raise no error that is bad comes across no such error
and no value that raises one. Whatever else reading a partial may fail with satisfies `E` as
well. -/
theorem Grounds.avoids (hbad : HostOnly bad) {settings : Settings} {E : Error → Prop}
    (hE : ∀ e : Error, e.Avoids bad → E e)
    (hanswers : settings.registry.answers.Avoid bad)
    (hfilters : ∀ e ∈ settings.registry.filters, Filter.Avoids bad e.2)
    (hread : ∀ name, Meets (fun _ => True) E (settings.readPartial name)) :
    Grounds settings (fun v => v.avoids bad = true) E :=
  have h := Hereditary.avoids hbad
  { evaluate := fun e _ hs => (h.evaluate (hs.view_avoids hanswers) e).mono (fun _ hv => hv) hE
    pipeline := fun p s hs =>
      have hview := hs.view_avoids hanswers
      (h.pipeline hview (fun f hf input args hinput hargs =>
        hfilters f hf _ input args hview hinput ⟨hargs.positional, hargs.keywords⟩) p).mono
        (fun _ hv => hv) hE
    condition := fun c _ hs => (h.condition (hs.view_avoids hanswers) c).mono (fun _ hv => hv) hE
    readPartial := hread
    raised := fun hmemory hforeign hcrash hline htemplate =>
      hE _ (Error.avoids_of_eq_false (hbad _ hmemory hforeign hcrash hline htemplate))
    nil := rfl
    str := fun _ => rfl
    loop := fun _ _ _ _ _ hp => hp
    liquid := h.liquid_value
    slice := fun start stop _ index hv => h.get_of start stop index hv
    members := fun index hv hall => h.get_all? index hv hall
    -- An array has its items, any other value stands for itself.
    items := fun {v} hv item hitem => by
      cases v with
      | array items => exact Value.allAvoid_iff.mp hv item hitem
      | _ =>
        obtain rfl := List.mem_singleton.mp hitem
        exact hv }

/-- With the standard tags and filters, a render whose data and files exhaust no budget comes across
no such error and no value that raises one. -/
theorem Closed.avoids_memory {settings : Settings}
    (htags : settings.registry.tags = TagKind.standard)
    (hfilters : settings.registry.filters = Filter.standard)
    (hanswers : settings.registry.answers.Avoid (ErrorKind.covers .memory))
    (hfiles : ∀ name e, settings.registry.files name = .error e →
      ErrorKind.covers .memory e = false) :
    Closed settings (fun v => v.avoids (ErrorKind.covers .memory) = true)
      (Error.Avoids (ErrorKind.covers .memory)) := by
  -- Parsing raises syntax errors only, and those are of another kind.
  have hparse (options : ParseOptions) (source : String) :
      FailsAvoiding (ErrorKind.covers .memory)
        (Document.parse (.ofOptions settings.registry options) source {}).1 := by
    let ctx := ParseContext.ofOptions settings.registry options
    have hctx : ctx.registry.tags = TagKind.standard := htags
    have hm := Document.parse_ensures hctx source {}
    exact hm.mono (fun _ _ => True.intro) fun e he => Error.avoids_of_isSyntax (.inl rfl) he
  have hg := Grounds.avoids hostOnly_memory (fun _ he => he) hanswers
    (hfilters ▸ Filter.standard_avoids hostOnly_memory rfl) (readPartial_avoids hfiles hparse)
  exact { hg with tags := htags }

/-- The frame that a render starts in is admitted if its data raises no error that is bad. -/
theorem Template.HostAvoids.admits_frame {t : Template} {values : Object}
    (h : t.HostAvoids bad values) :
    (t.startFrame values).Admits fun v => v.avoids bad = true where
  inner := List.forall_mem_nil _
  outer := fun e he => Value.entriesAvoid_iff.mp h.assigned e (List.mem_filter.mp he).1
  environments := List.forall_mem_cons.mpr ⟨Value.entriesAvoid_iff.mp h.values,
    List.forall_mem_singleton.mpr (Value.entriesAvoid_iff.mp h.presets)⟩
  loops := List.forall_mem_nil _

/-- The state that a render starts in is admitted if its data raises no error that is bad. -/
theorem Template.HostAvoids.admits {t : Template} {values : Object} (h : t.HostAvoids bad values)
    {options : RenderOptions} (ho : options.registers.AreStandard) :
    (t.start values options).Admits fun v => v.avoids bad = true :=
  ⟨h.admits_frame, ho⟩

end Stencil
