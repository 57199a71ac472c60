import Stencil.Template

/-!
# Moments of a render

What a render does, in order, each event with the state in which it happens. The
traces below follow the definitions of `Stencil.Render.Document` one by one, and
take every intermediate state from them, so a trace adds nothing to a render but
names for what it does on the way.

A statement about every point of a render is a statement about every moment of
`Document.moments`: a body is begun, a text is written, a value is assigned, an
interrupt is raised, a partial is included, a loop is left. In between, a render
evaluates, binds and restores.

## Key definitions

- `Event`, `Moment`, `Trace`
- `Body.trace`, `Tag.trace`: the moments of each part of a document
- `Document.moments`, `Template.moments`: the moments of a whole render
- `Moment.lengthCost`, `Moment.scoreCost`, `Moment.assignCost`: what a moment is charged
-/

namespace Stencil

open Render

/-- What happens at a moment of a render. -/
inductive Event where
  /-- A body of so many nodes is begun; `turn` if it is the turn of an item of a loop. -/
  | body (nodes : Nat) (turn : Bool)
  | write (text : String)
  | assign (name : String) (value : Value)
  | interrupt (interrupt : Interrupt)
  /-- An arm of a choice is taken up: its condition holds, or cannot be told. -/
  | arm
  /-- An included partial is taken up for an item. -/
  | item
  | includes (document : Document)
  /-- A loop has had its last turn. -/
  | left

/-- A moment of a render. -/
structure Moment where
  event : Event
  /-- The state in which it happens. -/
  state : RenderState

/-- The moments of a step, by the state that it starts from. -/
def Trace : Type :=
  RenderState → List Moment

namespace Trace

/-- Nothing happens. -/
def silent : Trace :=
  fun _ => []

/-- One event. -/
def note (event : Event) : Trace :=
  fun s => [⟨event, s⟩]

/-- The moments of what follows a step, if that succeeds. -/
def after {α : Type} (x : Render α) (next : α → Trace) : Trace := fun s =>
  match x s with
  | (.ok a, s) => next a s
  | (.error _, _) => []

/-- The moments of a step, and of what follows it. -/
def bind {α : Type} (t : Trace) (x : Render α) (next : α → Trace) : Trace := fun s =>
  t s ++ after x next s

/-- The moments of writing a pipeline. -/
def write (settings : Settings) (p : Pipeline) : Trace :=
  after (evaluatePipeline settings p) fun v => note (.write v.text)

/-- The moments of dealing with an error. -/
def rescue (settings : Settings) (line : Option Nat) (blank : Bool) (e : Error) : Trace := fun s =>
  let placed := (e.atLine line).inTemplate s.frame.template
  if settings.propagates e || placed.isUndefined || blank then []
  else after (record placed) (fun _ => note (.write (settings.showError placed))) s

/-- The moments of a step whose error is dealt with. -/
def rescuing (settings : Settings) (line : Option Nat) (blank : Bool) (x : Render Unit)
    (t : Trace) : Trace := fun s =>
  t s ++ match x s with
    | (.ok (), _) => []
    | (.error e, s) => rescue settings line blank e s

/-- The moments of numbered steps. -/
def steps (step : Nat → Render Bool) (t : Nat → Trace) (length : Nat) : (remaining : Nat) → Trace
  | 0 => silent
  | remaining + 1 =>
    bind (t (length - (remaining + 1))) (step (length - (remaining + 1))) fun more =>
      if more then steps step t length remaining else silent

/-! ## Steps inside something -/

/-- The moments of a step in a scope of its own. -/
def inScope (t : Trace) : Trace :=
  after (charge Budget.enterScope) fun _ s => t s.pushScope

/-- The moments of a step under another name. -/
def inTemplate (name : String) (t : Trace) : Trace := fun s =>
  t (s.withTemplate (some name))

/-- The moments of a step in a frame of its own. -/
def isolated (template : Option String) (t : Trace) : Trace := fun s =>
  t (s.withFrame (s.frame.isolated template))

/-- The moments of a step of a running loop. -/
def inLoop (loop : Value) (t : Trace) : Trace := fun s =>
  t (s.withLoops (loop :: s.frame.loops))

/-- The moments of a step that is diverted. -/
def diverted (t : Trace) : Trace := fun s =>
  t (s.withOutput "")

/-- The moments of a step that is captured. -/
def captured (t : Trace) : Trace := fun s =>
  diverted t s.beginCapture

/-! ## Loops and partials -/

/-- The moments of one iteration. -/
def iteration (name : String) (header : LoopHeader) (slice : Slice) (parent : Value) (t : Trace)
    (index : Nat) : Trace :=
  after (beginTurn name header slice parent index) fun loop => inLoop loop t

/-- The moments of a loop. -/
def loop (name : String) (header : LoopHeader) (slice : Slice) (body : Render Unit) (t : Trace) :
    Trace :=
  let turns : Trace := fun s =>
    let parent := s.frame.loops.head?.getD .nil
    inScope (steps (Render.iteration name header slice parent body)
      (iteration name header slice parent t) slice.length slice.length) s
  bind turns (Render.loop name header slice body) fun _ => note .left

/-- The moments of a partial that is included for each item. -/
def eachItem (target : String) (render : Render Unit) (t : Trace) : List Value → Trace
  | [] => silent
  | item :: items => fun s =>
    ⟨.item, s⟩ ::
      bind (after (bindName target item) fun _ => t) (do bindName target item; render)
        (fun _ => eachItem target render t items) s

/-- The moments of a document that is called; `turn` if that is the turn of an item. -/
abbrev OfPartials := (turn : Bool) → Document → Trace

/-- The moments of an `include` tag. -/
def includePartial (settings : Settings) (partials : PartialRenderer) (inner : OfPartials)
    (call : PartialCall) : Trace :=
  after (checkEnabled settings "include") fun _ =>
  after (partialName settings call.template) fun name =>
  after (loadPartial settings name) fun document =>
  after (includedObject settings call name) fun object =>
  inTemplate name <| inScope fun s =>
    ⟨.includes document, s⟩ ::
      after (bindAttributes settings call.attributes)
        (fun _ => eachItem (call.objectName name) (partials document) (inner false document)
          (includedItems object)) s

/-- The moments of a partial that is rendered once. -/
def renderOnce (settings : Settings) (inner : OfPartials) (turn : Bool) (name : String)
    (attributes : List (String × Value)) (bindings : Render (List (String × Value))) : Trace :=
  after (loadPartial settings name) fun document =>
  after bindings fun bindings =>
  isolated (some name) <| inScope <|
    after (bindAll (attributes ++ bindings)) fun _ => inner turn document

/-- The moments of a `render` tag. -/
def renderPartial (settings : Settings) (partials : PartialRenderer) (inner : OfPartials)
    (name : String) (call : PartialCall) : Trace :=
  let target := call.objectName name
  after (evaluateAll settings call.attributes) fun attributes =>
  after (passedObject settings target call) fun
    | .once bindings => renderOnce settings inner false name attributes (pure bindings)
    | .each members =>
      steps (renderMember settings partials name target attributes members)
        (fun index => renderOnce settings inner true name attributes
          (memberBindings name target members index))
        members.length members.length

end Trace

/-! ## Nodes -/

open Trace in
mutual

/-- The moments of a body; `turn` if it is the turn of an item of a loop. -/
def Body.trace (settings : Settings) (partials : PartialRenderer) (inner : OfPartials)
    (turn : Bool) : Body → Trace
  | .mk nodes _ => fun s =>
    ⟨.body nodes.length turn, s⟩ ::
      after (charge (·.chargeScore nodes.length))
        (fun _ => Node.traceAll settings partials inner nodes) s

/-- The moments of nodes in order. -/
def Node.traceAll (settings : Settings) (partials : PartialRenderer) (inner : OfPartials) :
    List Node → Trace
  | [] => silent
  | node :: nodes =>
    bind (Node.trace settings partials inner node) (node.render settings partials) fun more =>
      if more then Node.traceAll settings partials inner nodes else silent

/-- The moments of a node. -/
def Node.trace (settings : Settings) (partials : PartialRenderer) (inner : OfPartials) :
    Node → Trace
  | .text text => note (.write text)
  | .output p => rescuing settings p.line false (Render.write settings p) (write settings p)
  | .tag tag =>
    rescuing settings tag.line tag.isBlank (tag.render settings partials)
      (Tag.trace settings partials inner tag)

/-- The moments of the first branch that is taken. -/
def Branch.traceFirst (settings : Settings) (partials : PartialRenderer) (inner : OfPartials)
    (negated : Bool) : List Branch → Trace
  | [] => silent
  | .mk condition body :: branches =>
    after (evaluateCondition settings condition) fun holds =>
      if holds != negated then Body.trace settings partials inner false body
      else Branch.traceFirst settings partials inner false branches

/-- The moments of the arms of a choice. -/
def Arm.traceAll (settings : Settings) (partials : PartialRenderer) (inner : OfPartials)
    (matched : Bool) : List Arm → Trace
  | [] => silent
  | .when condition body :: arms => fun s =>
    match evaluateCondition settings condition s with
    | (.ok true, s) =>
      ⟨.arm, s⟩ ::
        bind (Body.trace settings partials inner false body) (body.render settings partials)
          (fun _ => Arm.traceAll settings partials inner true arms) s
    | (.ok false, s) => Arm.traceAll settings partials inner matched arms s
    | (.error _, s) => [⟨.arm, s⟩]
  | .otherwise body :: arms => fun s =>
    if matched then Arm.traceAll settings partials inner matched arms s
    else
      ⟨.arm, s⟩ ::
        bind (Body.trace settings partials inner false body) (body.render settings partials)
          (fun _ => Arm.traceAll settings partials inner matched arms) s

/-- The moments of numbered sections. -/
def Body.traceSections (settings : Settings) (partials : PartialRenderer) (inner : OfPartials)
    (index : Nat) : List Body → Trace
  | [] => silent
  | body :: bodies =>
    let mark := "<" ++ toString index ++ ">"
    bind (note (.write mark)) (emit mark) fun _ =>
    bind (inScope (Body.trace settings partials inner false body))
      (Render.inScope (body.render settings partials)) fun _ =>
    Body.traceSections settings partials inner (index + 1) bodies

/-- The moments of a body, if there is one. -/
def Body.traceIfAny (settings : Settings) (partials : PartialRenderer) (inner : OfPartials) :
    Option Body → Trace
  | none => silent
  | some body => Body.trace settings partials inner false body

/-- The moments of a tag. -/
def Tag.trace (settings : Settings) (partials : PartialRenderer) (inner : OfPartials) : Tag → Trace
  | .conditional _ negated branches _ _ =>
    Branch.traceFirst settings partials inner negated branches
  | .choice arms _ _ => Arm.traceAll settings partials inner false arms
  | .loop name header body otherwise _ _ =>
    after (loopSlice settings name header) fun slice =>
      if slice.length = 0 then Body.traceIfAny settings partials inner otherwise
      else
        loop name header slice (body.render settings partials)
          (Body.trace settings partials inner true body)
  | .interrupt i _ => note (.interrupt i)
  | .assign target source _ =>
    after (evaluatePipeline settings source) fun v => note (.assign target v)
  | .capture _ body _ => captured (Body.trace settings partials inner false body)
  | .comment | .inlineComment => silent
  | .raw text => note (.write text)
  | .echo source => write settings source
  | .lines body _ => Body.trace settings partials inner false body
  | .includePartial call _ => includePartial settings partials inner call
  | .renderPartial name call _ => renderPartial settings partials inner name call
  | .transform _ f body =>
    bind (diverted (Body.trace settings partials inner false body))
      (Render.diverted (body.render settings partials)) fun text => note (.write (f text))
  | .sections _ bodies _ => Body.traceSections settings partials inner 0 bodies
  | .counter _ register => fun s =>
    -- What is written is the count that the register holds afterwards.
    after (count register)
      (fun _ t => [⟨.write ((t.progress.registers.values.get? register).getD .nil).text, s⟩]) s

end

/-! ## Documents -/

namespace Document

/-- The moments of a document that calls partials at most `levels` deep. -/
def traceWithin (settings : Settings) : (levels : Nat) → Trace.OfPartials
  | 0 => Body.trace settings (fun _ => Attempt.fail .tooDeep) fun _ _ => Trace.silent
  | levels + 1 =>
    Body.trace settings (renderWithin settings levels) (traceWithin settings levels)

/-- The moments of rendering a document. -/
def moments (settings : Settings) (document : Document) : Trace := fun s =>
  traceWithin settings s.progress.budget.scopesLeft false document s

end Document

/-- The moments of rendering a template. -/
def Template.moments (t : Template) (values : Object) (options : RenderOptions) (rethrow : Bool) :
    List Moment :=
  match t.document with
  | none => []
  | some document =>
    document.moments (options.settings t.registry t.parsing rethrow) (t.start values options)

/-! ## Costs -/

namespace Moment

/-- The pending interrupts. -/
def pending (m : Moment) : List Interrupt :=
  m.state.frame.interrupts

/-- Whether a capture is open. -/
def isCaptured (m : Moment) : Bool :=
  0 < m.state.progress.budget.captures

/-- What is charged to the length of the output: the bytes of a text that is not captured. -/
def lengthCost (m : Moment) : Nat :=
  match m.event with
  | .write text => if m.isCaptured then 0 else text.utf8ByteSize
  | _ => 0

/-- What is charged to the score: the nodes of a body. -/
def scoreCost (m : Moment) : Nat :=
  match m.event with
  | .body nodes _ => nodes
  | _ => 0

/-- What is charged to the stored values: what an assigned value costs, and the bytes of a text
that is captured. -/
def assignCost (m : Moment) : Nat :=
  match m.event with
  | .assign _ value => value.storageCost
  | .write text => if m.isCaptured then text.utf8ByteSize else 0
  | _ => 0

end Moment

end Stencil
