import Stencil.Document.Builder
import Stencil.Render

/-! # Partials

Loading the templates that other templates call.  A partial is read once in a render; one that
cannot be read is read again the next time it is called.

* `loadPartial_of_read`: what was read is taken from the registers.
* `loadPartial_eq_error`: a partial that cannot be read leaves no trace. -/

namespace Stencil

/-- Reads a partial. -/
def Settings.readPartial (settings : Settings) (name : String) : Except Error Document := do
  let source ← settings.registry.files name
  -- A partial is read as the template is, but under its own name and from level zero.
  let ctx := ParseContext.ofOptions settings.registry { settings.parsing with name := some name }
  (Document.parse ctx source {}).1

namespace Render

/-- The document of a partial. -/
def loadPartial (settings : Settings) (name : String) : Render Document := fun s =>
  match s.progress.registers.partials.get? name with
  | some document => (.ok document, s)
  | none =>
    match settings.readPartial name with
    | .ok document =>
      let registers := s.progress.registers
      (.ok document, { s with
        progress.registers := { registers with partials := registers.partials.put name document } })
    | .error e => (.error e, s)

/-- What was read is taken from the registers. -/
theorem loadPartial_of_read {settings : Settings} {name : String} {document : Document}
    {s : RenderState} (h : s.progress.registers.partials.get? name = some document) :
    loadPartial settings name s = (.ok document, s) := by
  simp [loadPartial, h]

/-- A partial that cannot be read leaves no trace. -/
theorem loadPartial_eq_error {settings : Settings} {name : String} {e : Error} {s s' : RenderState}
    (h : loadPartial settings name s = (.error e, s')) : s' = s := by
  unfold loadPartial at h
  split at h
  · exact nomatch (Prod.mk.inj h).1
  · split at h
    · exact nomatch (Prod.mk.inj h).1
    · exact (Prod.mk.inj h).2.symm

/-- What an `include` tag includes: the name of a partial. -/
def partialName (settings : Settings) (template : Expression) : Render String := do
  match (← evaluate settings template).scalar with
  | .str name => return name
  | _ => Attempt.fail (.argument (settings.registry.messages.text "errors.argument.include"))

/-- Fails if a tag must not be used. -/
def checkEnabled (settings : Settings) (tag : String) : Render Unit := fun s =>
  if s.frame.disabled.contains tag then
    let message := tag ++ " " ++ settings.registry.messages.text "errors.disabled.tag"
    (.error ⟨.standard, message, none, none⟩, s)
  else (.ok (), s)

/-- The variable of that name, nil if there is none. -/
def variableOrNil (settings : Settings) (name : String) : Render Value := fun s =>
  (.ok (((settings.view s).find? name).getD .nil), s)

end Render

end Stencil
