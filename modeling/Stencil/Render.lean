import Stencil.Attempt
import Stencil.Document
import Stencil.Evaluation
import Stencil.Parsing

/-! # Renders

The state of a render and the steps that it is made of.  The state has two parts.  The *frame*
belongs to the template that is being rendered: its variables, pending interrupts, running loops
and name.  The *progress* belongs to the whole render: what was written, spent, recorded and
registered.  An isolated partial gets a frame of its own and shares the progress.

Steps that open something take what is to happen inside as an argument, and close again in any case:

* `frame_isolated`: an isolated step leaves the frame as it was.
* `progress_isolated_congr`: what it does depends on nothing but the disabled tags of that frame.
* `output_captured`: a captured step writes nothing. -/

namespace Stencil

/-- What is kept across tags outside the variables. -/
structure Registers where
  values : Assoc Value := []
  /-- Where the last loop of a name stopped. -/
  positions : Assoc Nat := []
  /-- The partials that were read. -/
  partials : Assoc Document := []

/-- What belongs to the template that is being rendered. -/
structure Frame where
  scopes : Scopes := {}
  environments : List Object := []
  /-- The interrupts that no loop has noticed yet, the latest first. -/
  interrupts : List Interrupt := []
  /-- The running loops, the innermost first. -/
  loops : List Value := []
  template : Option String := none
  /-- The tags that must not be used. -/
  disabled : List String := []

/-- What the whole render has done so far. -/
structure Progress where
  output : String := ""
  budget : Budget := {}
  /-- The errors that were rescued, in order. -/
  errors : Array Error := #[]
  registers : Registers := {}
  /-- How many iterations of loops have begun. -/
  iterations : Nat := 0

/-- The state of a render. -/
structure RenderState where
  frame : Frame := {}
  progress : Progress := {}

/-- What stays the same during a render. -/
structure Settings where
  registry : Registry := {}
  /-- How partials are read. -/
  parsing : ParseOptions := {}
  /-- How errors are shown in the output. -/
  showError : Error → String := Error.text
  strictVariables : Bool := false
  strictFilters : Bool := false
  /-- Whether the first error ends the render. -/
  rethrow : Bool := false

/-- A step of a render. -/
abbrev Render := Attempt RenderState

/-- What expressions can see in a state. -/
def Settings.view (settings : Settings) (s : RenderState) : View :=
  { scopes := s.frame.scopes
    environments := s.frame.environments
    registers := s.progress.registers.values
    partials := s.progress.registers.partials.length
    budget := s.progress.budget
    errors := s.progress.errors
    interrupts := s.frame.interrupts
    template := s.frame.template
    disabled := s.frame.disabled
    strictVariables := settings.strictVariables
    strictFilters := settings.strictFilters
    answers := settings.registry.answers }

/-- Whether an error ends the render: exhausted budgets and failures that are the host's own do,
and so does any error if the settings say so.  A program that gives no result goes on nowhere. -/
def Settings.propagates (settings : Settings) (e : Error) : Bool :=
  settings.rethrow || e.kind == .memory || e.kind == .foreign || e.kind == .crash

/-! ## States -/

namespace RenderState

/-- Opens a scope. -/
def pushScope (s : RenderState) : RenderState :=
  { s with frame.scopes := s.frame.scopes.push }

/-- Closes the innermost scope. -/
def popScope (s : RenderState) : RenderState :=
  { frame := { s.frame with scopes := s.frame.scopes.pop }
    progress := { s.progress with budget := s.progress.budget.exitScope } }

/-- Gives the render another template's name. -/
def withTemplate (s : RenderState) (template : Option String) : RenderState :=
  { s with frame.template := template }

/-- Gives the render another list of running loops. -/
def withLoops (s : RenderState) (loops : List Value) : RenderState :=
  { s with frame.loops := loops }

/-- Gives the render another frame. -/
def withFrame (s : RenderState) (frame : Frame) : RenderState :=
  { s with frame }

/-- Gives the render another output. -/
def withOutput (s : RenderState) (output : String) : RenderState :=
  { s with progress.output := output }

/-- Opens a capture. -/
def beginCapture (s : RenderState) : RenderState :=
  { s with progress.budget := s.progress.budget.beginCapture }

/-- Closes a capture. -/
def endCapture (s : RenderState) : RenderState :=
  { s with progress.budget := s.progress.budget.endCapture }

end RenderState

/-- The frame of an isolated partial: it shows nothing of the caller's, and no partials may be
included. -/
def Frame.isolated (frame : Frame) (template : Option String) : Frame :=
  { template, disabled := "include" :: frame.disabled }

namespace Render

/-! ## Evaluation -/

/-- The value of an expression. -/
def evaluate (settings : Settings) (e : Expression) : Render Value := fun s =>
  (e.evaluate (settings.view s), s)

/-- The value of a pipeline. -/
def evaluatePipeline (settings : Settings) (p : Pipeline) : Render Value := fun s =>
  (p.evaluate settings.registry.filters (settings.view s), s)

/-- Whether a condition holds. -/
def evaluateCondition (settings : Settings) (c : Condition) : Render Bool := fun s =>
  (c.evaluate (settings.view s), s)

/-- The values of named expressions, in order. -/
def evaluateAll (settings : Settings) (entries : List (String × Expression)) :
    Render (List (String × Value)) :=
  entries.mapM fun (name, e) => return (name, ← evaluate settings e)

/-! ## Budget and output -/

/-- Makes a charge. -/
def charge (cost : Budget → Except Error Unit × Budget) : Render Unit := fun s =>
  match cost s.progress.budget with
  | (r, budget) => (r, { s with progress.budget := budget })

/-- Writes a text, and charges its bytes when it is written. -/
def emit (text : String) : Render Unit := fun s =>
  -- A text that is too much stands in the output all the same.
  charge (·.chargeWrite text.utf8ByteSize) { s with progress.output := s.progress.output ++ text }

/-- What a step writes, in place of writing it. -/
def diverted (x : Render Unit) : Render String := fun s =>
  -- An error gives up what was written up to it.
  match x (s.withOutput "") with
  | (r, s') => (r.map fun _ => s'.progress.output, s'.withOutput s.progress.output)

/-- What a step writes, charged as a value that is stored and not as output. -/
def captured (x : Render Unit) : Render String := fun s =>
  -- The capture is closed whether the step fails or not.
  match diverted x s.beginCapture with
  | (r, s') => (r, s'.endCapture)

/-! ## Variables -/

/-- Changes the scopes. -/
def modifyScopes (f : Scopes → Scopes) : Render Unit :=
  Attempt.modify fun s => { s with frame.scopes := f s.frame.scopes }

/-- Binds a name in the innermost scope. -/
def bindName (name : String) (value : Value) : Render Unit :=
  modifyScopes (·.bind name value)

/-- Binds names in the innermost scope, from left to right. -/
def bindAll (entries : List (String × Value)) : Render Unit :=
  modifyScopes fun scopes => entries.foldl (fun scopes e => scopes.bind e.1 e.2) scopes

/-- Binds a name in the outermost scope. -/
def store (name : String) (value : Value) : Render Unit :=
  modifyScopes (·.assign name value)

/-- Binds a name in the outermost scope and charges what that costs first. -/
def assign (name : String) (value : Value) : Render Unit := do
  charge (·.chargeAssign value.storageCost)
  store name value

/-- Takes a step in a scope of its own. -/
def inScope {α : Type} (x : Render α) : Render α := fun s =>
  match charge Budget.enterScope s with
  -- A scope that is refused was never opened, so there is none to close.
  | (.error e, s) => (.error e, s)
  | (.ok (), s) =>
    match x s.pushScope with
    | (r, s) => (r, s.popScope)

/-! ## Frames -/

/-- Takes a step under the name of another template. -/
def inTemplate {α : Type} (name : String) (x : Render α) : Render α := fun s =>
  match x (s.withTemplate (some name)) with
  | (r, s') => (r, s'.withTemplate s.frame.template)

/-- Takes a step in a frame of its own, which sees nothing of the caller's and may not include
partials. -/
def isolated {α : Type} (template : Option String) (x : Render α) : Render α := fun s =>
  -- The progress is shared, so what is written and spent inside counts outside too.
  match x (s.withFrame (s.frame.isolated template)) with
  | (r, s') => (r, s'.withFrame s.frame)

/-- Takes a step as part of a running loop. -/
def inLoop {α : Type} (loop : Value) (x : Render α) : Render α := fun s =>
  match x (s.withLoops (loop :: s.frame.loops)) with
  | (r, s') => (r, s'.withLoops s.frame.loops)

/-- Begins an iteration of a loop and gives the value that describes it. -/
def beginIteration (name : String) (length index : Nat) (parent : Value) : Render Value := fun s =>
  (.ok (.drop (.loop s.progress.iterations name length index parent)),
    { s with progress.iterations := s.progress.iterations + 1 })

/-- Raises an interrupt. -/
def interrupt (i : Interrupt) : Render Unit :=
  Attempt.modify fun s => { s with frame.interrupts := i :: s.frame.interrupts }

/-- Takes the latest interrupt, if there is one. -/
def takeInterrupt : Render (Option Interrupt) := fun s =>
  (.ok s.frame.interrupts.head?, { s with frame.interrupts := s.frame.interrupts.tail })

/-- Whether an interrupt is pending. -/
def interrupted : Render Bool := fun s =>
  (.ok !s.frame.interrupts.isEmpty, s)

/-! ## Errors -/

/-- Notes an error. -/
def record (e : Error) : Render Unit :=
  Attempt.modify fun s => { s with progress.errors := s.progress.errors.push e }

/-- Deals with the error of a node at `line`.  One that does not end the render is recorded with its
place and shown in the output, unless it only says that a name is not defined or the node is
blank. -/
def rescue (settings : Settings) (line : Option Nat) (blank : Bool) (e : Error) : Render Unit :=
  if settings.propagates e then Attempt.fail e
  else fun s =>
    let e := (e.atLine line).inTemplate s.frame.template
    (do record e
        -- What is not shown is recorded all the same.
        if e.isUndefined || blank then pure () else emit (settings.showError e)) s

/-- Takes a step and deals with its error. -/
def rescuing (settings : Settings) (line : Option Nat) (blank : Bool) (x : Render Unit) :
    Render Unit := fun s =>
  match x s with
  | (.ok (), s) => (.ok (), s)
  | (.error e, s) => rescue settings line blank e s

/-! ## What steps leave behind -/

/-- An isolated step leaves the frame as it was. -/
@[simp] theorem frame_isolated {α : Type} (template : Option String) (x : Render α)
    (s : RenderState) : (isolated template x s).2.frame = s.frame := rfl

/-- What an isolated step does depends on nothing of the caller's frame but the disabled tags. -/
theorem progress_isolated_congr {α : Type} (template : Option String) (x : Render α)
    {s t : RenderState} (hp : s.progress = t.progress) (hd : s.frame.disabled = t.frame.disabled) :
    (isolated template x s).1 = (isolated template x t).1
      ∧ (isolated template x s).2.progress = (isolated template x t).2.progress := by
  simp [isolated, RenderState.withFrame, Frame.isolated, hp, hd]

/-- A step that is diverted writes nothing. -/
@[simp] theorem output_diverted (x : Render Unit) (s : RenderState) :
    (diverted x s).2.progress.output = s.progress.output := rfl

/-- A step that is captured writes nothing. -/
@[simp] theorem output_captured (x : Render Unit) (s : RenderState) :
    (captured x s).2.progress.output = s.progress.output := rfl

end Render

end Stencil
