import Stencil.Render.Document

/-! # Templates

A template that is read once and rendered many times.  A render sees the values that it is given,
behind them what earlier renders assigned, and behind that the presets.  What it assigns is kept
for the renders after it.

* `parse_of_error`: a source that cannot be read changes nothing but the warnings.
* `find?_start_of_passed`: a value that a render is given hides all others of its name. -/

namespace Stencil

/-- What a host chooses for one render. -/
structure RenderOptions where
  strictVariables : Bool := false
  strictFilters : Bool := false
  /-- How errors are shown, in place of what the registry says. -/
  showError : Option (Error → String) := none
  /-- The registers that the render starts with; none of the template's own are kept. -/
  registers : Registers := {}

/-- A template with what it keeps from render to render. -/
structure Template where
  registry : Registry := .standard
  document : Option Document := none
  /-- How the document was read, and how its partials are. -/
  parsing : ParseOptions := {}
  /-- Variables that every render sees behind all others. -/
  presets : Object := []
  /-- What renders assigned so far. -/
  assigned : Object := []
  /-- The ceilings for the next render, and what the last one spent. -/
  budget : Budget := {}
  /-- The errors that the last render rescued. -/
  errors : Array Error := #[]
  /-- The warnings of the last reading. -/
  warnings : Array Error := #[]
  /-- How many iterations of loops have begun in all renders. -/
  iterations : Nat := 0

/-- The settings that a registry and the options of a render amount to. -/
def RenderOptions.settings (options : RenderOptions) (registry : Registry) (parsing : ParseOptions)
    (rethrow : Bool) : Settings :=
  { registry
    parsing
    showError := (options.showError.or registry.showError).getD Error.text
    strictVariables := options.strictVariables
    strictFilters := options.strictFilters
    rethrow }

namespace Template

/-- Reads a source in place of the current document, which stays if that fails. -/
def parse (t : Template) (source : String) (options : ParseOptions := {}) :
    Except Error Unit × Template :=
  match Document.parse (.ofOptions t.registry options) source {} with
  | (.ok document, s) =>
    (.ok (), { t with document := some document, parsing := options, warnings := s.warnings })
  | (.error e, s) => (.error e, { t with warnings := s.warnings })

/-- The frame that a render with `values` starts in.  What was assigned before is left out where it
would hide a value that is passed. -/
def startFrame (t : Template) (values : Object) : Frame :=
  -- Scopes are looked into before environments.
  { scopes := { outer := t.assigned.filter fun e => !values.binds e.1 }
    environments := [values, t.presets]
    template := t.parsing.name }

/-- The state that a render with `values` starts in. -/
def start (t : Template) (values : Object) (options : RenderOptions) : RenderState :=
  { frame := t.startFrame values
    progress :=
      { budget := t.budget.reset
        registers := options.registers
        iterations := t.iterations } }

/-- The template after a render that ended in the state `s`, with the budget marked if the render
was ended by it. -/
def keep (t : Template) (r : Except Error Unit) (s : RenderState) : Template :=
  let budget := s.progress.budget
  -- Assignments are kept from a failed render too, up to where it failed.
  { t with
    assigned := t.assigned.putAll s.frame.scopes.outer
    budget :=
      match r with
      | .error e => if e.kind = .memory then budget.markReached else budget
      | .ok () => budget
    errors := s.progress.errors
    iterations := s.progress.iterations }

/-- Renders the document; nothing is written if there is none. -/
def run (t : Template) (values : Object) (options : RenderOptions) (rethrow : Bool) :
    Except Error String × Template :=
  match t.document with
  | none => (.ok "", t)
  | some document =>
    let settings := options.settings t.registry t.parsing rethrow
    match document.render settings (t.start values options) with
    | (r, s) => (r.map fun _ => s.progress.output, t.keep r s)

/-- Renders the document and fails with the first error. -/
def renderStrict (t : Template) (values : Object) (options : RenderOptions := {}) :
    Except Error String × Template :=
  t.run values options true

/-- Renders the document with errors shown in their places.  If the budget is exhausted the output
is the message that says so.  Only failures that are the host's own remain.  If the program gives
no result at all, what is said to be left behind is of no account. -/
def render (t : Template) (values : Object) (options : RenderOptions := {}) :
    Except Error String × Template :=
  match t.run values options false with
  | (.error e, t) =>
    -- The output is lost, and the message of the error stands in its place.
    if e.kind = .memory then (.ok e.text, { t with errors := t.errors.push e })
    else (.error e, t)
  | (.ok output, t) => (.ok output, t)

/-- A source that cannot be read changes nothing but the warnings. -/
theorem parse_of_error {t t' : Template} {source : String} {options : ParseOptions} {e : Error}
    (h : t.parse source options = (.error e, t')) : t' = { t with warnings := t'.warnings } := by
  unfold parse at h
  split at h
  · exact nomatch (Prod.mk.inj h).1
  · rw [← (Prod.mk.inj h).2]

/-- Reading a source does not change the registry. -/
theorem registry_parse (t : Template) (source : String) (options : ParseOptions) :
    (t.parse source options).2.registry = t.registry := by
  unfold parse
  split <;> rfl

/-- What was assigned before is left out of the outermost scope where a value of its name is
passed. -/
theorem get?_filter_not_binds (m values : Object) (name : String) :
    Assoc.get? (m.filter fun e => !values.binds e.1) name
      = if values.binds name then none else m.get? name := by
  induction m with
  | nil => simp
  | cons e m ih =>
    obtain ⟨k, v⟩ := e
    by_cases hk : name = k
    · subst hk
      cases hb : values.binds name <;> simp_all [Assoc.get?_cons]
    · cases hb : values.binds k <;> simp_all [Assoc.get?_cons]

/-- A value that a render is given hides all others of its name. -/
theorem find?_start_of_passed (t : Template) {values : Object} {name : String} {v : Value}
    (h : values.get? name = some v) (options : RenderOptions) (settings : Settings) :
    (settings.view (t.start values options)).find? name = some v := by
  have hbound : values.binds name = true := by simp [Assoc.binds, h]
  simp [View.find?, Settings.view, start, startFrame, Scopes.find?, Scopes.findIn?,
    get?_filter_not_binds, hbound, h]

end Template

/-- Reads and renders a source in one go. -/
def render (source : String) (values : Object) (registry : Registry := .standard) :
    Except Error String := do
  let t : Template := { registry }
  match t.parse source with
  | (.ok (), t) => (t.render values).1
  | (.error e, _) => .error e

end Stencil
