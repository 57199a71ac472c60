import Stencil.Proofs.BlankTags
import Stencil.Proofs.Containment

/-!
# Faults of a render

What goes wrong in a render, in order, each error with the node whose own step it is: the
evaluation of its markup, the loading of a partial, the opening of a scope. The logs below
follow the definitions of `Stencil.Render.Document` one by one, and take every intermediate
state from them, so a log adds nothing to a render but names for what fails on the way.

A location names the document that a node is part of by how the render came to it: the
template by its own name, a partial by the name that it was called by. No state is asked
for it.

Steps that can fail with the error of the budget only are not noted where they write or
charge.

## Key definitions

- `Location`, `Fault`, `FaultLog`
- `Body.Within`: the nodes of a body, at any depth
- `Body.faults`, `Tag.faults`: the faults of each part of a document
- `Document.faults`, `Template.faults`: the faults of a whole render
-/

namespace Stencil

open Render

/-- Whether the tag takes no steps of its own that can fail, but for the budget. -/
def Tag.isIdle : Tag → Bool
  | .interrupt .. | .comment | .inlineComment | .raw _ => true
  | _ => false

/-- Whether the node takes no steps of its own that can fail, but for the budget. -/
def Node.isIdle : Node → Bool
  | .text _ => true
  | .output _ => false
  | .tag t => t.isIdle

/-- A node of a document, and the name that the document goes by. -/
structure Location where
  owner : Option String
  document : Document
  node : Node

/-- An error that a step of a node fails with. -/
structure Fault where
  location : Location
  error : Error

/-- The error as it is to be recorded: with the line of the node and the name of its document,
unless it has a place already. -/
def Fault.recorded (f : Fault) : Error :=
  (f.error.atLine f.location.node.line).inTemplate f.location.owner

/-- The node is one of the body, or of a body of one of its tags, at any depth. -/
inductive Body.Within : Body → Node → Prop where
  | here {body : Body} {node : Node} : node ∈ body.nodes → Within body node
  | inside {body inner : Body} {tag : Tag} {node : Node} : .tag tag ∈ body.nodes →
      inner ∈ tag.bodies → Within inner node → Within body node

/-- The faults of a step, by the state that it starts from. -/
def FaultLog : Type :=
  RenderState → List Fault

namespace FaultLog

/-- Nothing is noted. -/
def silent : FaultLog :=
  fun _ => []

/-- The fault of a step that a node takes itself, if it fails. -/
def own {α : Type} (location : Location) (x : Render α) : FaultLog := fun s =>
  match (x s).1 with
  | .ok _ => []
  | .error e => [⟨location, e⟩]

/-- The faults of what follows a step, if that succeeds. -/
def follow {α : Type} (x : Render α) (next : α → FaultLog) : FaultLog := fun s =>
  match x s with
  | (.ok a, s) => next a s
  | (.error _, _) => []

/-- The faults of a step, and of what follows it. -/
def bind {α : Type} (l : FaultLog) (x : Render α) (next : α → FaultLog) : FaultLog := fun s =>
  l s ++ follow x next s

/-- The fault of a step that a node takes itself, or those of what follows. -/
def after {α : Type} (location : Location) (x : Render α) (next : α → FaultLog) : FaultLog :=
  bind (own location x) x next

/-- The faults of numbered steps. -/
def steps (step : Nat → Render Bool) (l : Nat → FaultLog) (length : Nat) :
    (remaining : Nat) → FaultLog
  | 0 => silent
  | remaining + 1 =>
    bind (l (length - (remaining + 1))) (step (length - (remaining + 1))) fun more =>
      if more then steps step l length remaining else silent

/-! ## Steps inside something -/

/-- The faults of a step in a scope that a node opens. -/
def inScope (location : Location) (l : FaultLog) : FaultLog :=
  after location (charge Budget.enterScope) fun _ s => l s.pushScope

/-- The faults of a step under another name. -/
def inTemplate (name : String) (l : FaultLog) : FaultLog := fun s =>
  l (s.withTemplate (some name))

/-- The faults of a step in a frame of its own. -/
def isolated (template : Option String) (l : FaultLog) : FaultLog := fun s =>
  l (s.withFrame (s.frame.isolated template))

/-- The faults of a step of a running loop. -/
def inLoop (loop : Value) (l : FaultLog) : FaultLog := fun s =>
  l (s.withLoops (loop :: s.frame.loops))

/-- The faults of a step that is diverted. -/
def diverted (l : FaultLog) : FaultLog := fun s =>
  l (s.withOutput "")

/-- The faults of a step that is captured. -/
def captured (l : FaultLog) : FaultLog := fun s =>
  diverted l s.beginCapture

/-! ## Loops and partials -/

/-- The faults of a loop. -/
def loop (location : Location) (name : String) (header : LoopHeader) (slice : Slice)
    (body : Render Unit) (l : FaultLog) : FaultLog := fun s =>
  let parent := s.frame.loops.head?.getD .nil
  let turn := fun index =>
    follow (beginTurn name header slice parent index) fun loop => inLoop loop l
  inScope location
    (steps (iteration name header slice parent body) turn slice.length slice.length) s

/-- The faults of a partial that is included for each item. -/
def eachItem (target : String) (render : Render Unit) (l : FaultLog) : List Value → FaultLog
  | [] => silent
  | item :: items =>
    bind (follow (bindName target item) fun _ => l) (do bindName target item; render) fun _ =>
      eachItem target render l items

/-- The faults of a document that a node calls by a name. -/
abbrev OfPartials := Location → String → Document → FaultLog

/-- The faults of an `include` tag. -/
def includePartial (settings : Settings) (partials : PartialRenderer) (inner : OfPartials)
    (location : Location) (call : PartialCall) : FaultLog :=
  after location (checkEnabled settings "include") fun _ =>
  after location (partialName settings call.template) fun name =>
  after location (loadPartial settings name) fun document =>
  after location (includedObject settings call name) fun object =>
  inTemplate name <| inScope location <|
    -- The attributes are the tag's own, though they are evaluated under the partial's name.
    after location (bindAttributes settings call.attributes) fun _ =>
      eachItem (call.objectName name) (partials document) (inner location name document)
        (includedItems object)

/-- The faults of a partial that is rendered once. -/
def renderOnce (settings : Settings) (inner : OfPartials) (location : Location) (name : String)
    (attributes : List (String × Value)) (bindings : Render (List (String × Value))) : FaultLog :=
  after location (loadPartial settings name) fun document =>
  after location bindings fun bindings =>
  isolated (some name) <| inScope location <|
    follow (bindAll (attributes ++ bindings)) fun _ => inner location name document

/-- The faults of a `render` tag. -/
def renderPartial (settings : Settings) (partials : PartialRenderer) (inner : OfPartials)
    (location : Location) (name : String) (call : PartialCall) : FaultLog :=
  let target := call.objectName name
  after location (evaluateAll settings call.attributes) fun attributes =>
  after location (passedObject settings target call) fun
    | .once bindings => renderOnce settings inner location name attributes (pure bindings)
    | .each members =>
      steps (renderMember settings partials name target attributes members)
        (fun index => renderOnce settings inner location name attributes
          (memberBindings name target members index))
        members.length members.length

end FaultLog

/-! ## Nodes -/

open FaultLog in
mutual

/-- The faults of a body, where `place` says where its nodes are. -/
def Body.faults (settings : Settings) (partials : PartialRenderer) (inner : OfPartials)
    (place : Node → Location) : Body → FaultLog
  | .mk nodes _ =>
    follow (charge (·.chargeScore nodes.length)) fun _ =>
      Node.faultsAll settings partials inner place nodes

/-- The faults of nodes in order. -/
def Node.faultsAll (settings : Settings) (partials : PartialRenderer) (inner : OfPartials)
    (place : Node → Location) : List Node → FaultLog
  | [] => silent
  | node :: nodes =>
    bind (Node.faults settings partials inner place node) (node.render settings partials)
      fun more => if more then Node.faultsAll settings partials inner place nodes else silent

/-- The faults of a node. -/
def Node.faults (settings : Settings) (partials : PartialRenderer) (inner : OfPartials)
    (place : Node → Location) : Node → FaultLog
  | .text _ => silent
  | .output p => own (place (.output p)) (write settings p)
  | .tag tag => Tag.faults settings partials inner place (place (.tag tag)) tag

/-- The faults of a tag with branches. -/
def Branch.faultsFirst (settings : Settings) (partials : PartialRenderer) (inner : OfPartials)
    (place : Node → Location) (location : Location) (negated : Bool) : List Branch → FaultLog
  | [] => silent
  | .mk condition body :: branches =>
    after location (evaluateCondition settings condition) fun holds =>
      if holds != negated then Body.faults settings partials inner place body
      else Branch.faultsFirst settings partials inner place location false branches

/-- The faults of a tag with arms. -/
def Arm.faultsAll (settings : Settings) (partials : PartialRenderer) (inner : OfPartials)
    (place : Node → Location) (location : Location) (matched : Bool) : List Arm → FaultLog
  | [] => silent
  | .when condition body :: arms =>
    after location (evaluateCondition settings condition) fun holds =>
      if holds then
        bind (Body.faults settings partials inner place body) (body.render settings partials)
          fun _ => Arm.faultsAll settings partials inner place location true arms
      else Arm.faultsAll settings partials inner place location matched arms
  | .otherwise body :: arms =>
    if matched then Arm.faultsAll settings partials inner place location matched arms
    else
      bind (Body.faults settings partials inner place body) (body.render settings partials)
        fun _ => Arm.faultsAll settings partials inner place location matched arms

/-- The faults of numbered sections. -/
def Body.faultsSections (settings : Settings) (partials : PartialRenderer) (inner : OfPartials)
    (place : Node → Location) (location : Location) (index : Nat) : List Body → FaultLog
  | [] => silent
  | body :: bodies =>
    follow (emit ("<" ++ toString index ++ ">")) fun _ =>
    bind (inScope location (Body.faults settings partials inner place body))
      (Render.inScope (body.render settings partials)) fun _ =>
    Body.faultsSections settings partials inner place location (index + 1) bodies

/-- The faults of a body, if there is one. -/
def Body.faultsIfAny (settings : Settings) (partials : PartialRenderer) (inner : OfPartials)
    (place : Node → Location) : Option Body → FaultLog
  | none => silent
  | some body => Body.faults settings partials inner place body

/-- The faults of a tag that is at `location`. -/
def Tag.faults (settings : Settings) (partials : PartialRenderer) (inner : OfPartials)
    (place : Node → Location) (location : Location) : Tag → FaultLog
  | .conditional _ negated branches _ _ =>
    Branch.faultsFirst settings partials inner place location negated branches
  | .choice arms _ _ => Arm.faultsAll settings partials inner place location false arms
  | .loop name header body otherwise _ _ =>
    after location (loopSlice settings name header) fun slice =>
      if slice.length = 0 then Body.faultsIfAny settings partials inner place otherwise
      else
        loop location name header slice (body.render settings partials)
          (Body.faults settings partials inner place body)
  | .assign _ source _ => own location (evaluatePipeline settings source)
  | .capture _ body _ => captured (Body.faults settings partials inner place body)
  | .echo source => own location (write settings source)
  | .lines body _ => Body.faults settings partials inner place body
  | .includePartial call _ => includePartial settings partials inner location call
  | .renderPartial name call _ => renderPartial settings partials inner location name call
  | .transform _ _ body => diverted (Body.faults settings partials inner place body)
  | .sections _ bodies _ => Body.faultsSections settings partials inner place location 0 bodies
  | .counter _ register => own location (count register)
  | .interrupt .. | .comment | .inlineComment | .raw _ => silent

end

/-! ## Documents -/

namespace Document

/-- The faults of a document that goes by the name `owner` and calls partials at most `levels`
deep. -/
def faultsWithin (settings : Settings) :
    (levels : Nat) → (owner : Option String) → Document → FaultLog
  | 0, owner, document =>
    Body.faults settings (fun _ => Attempt.fail .tooDeep)
      (fun location _ _ => .own location (Attempt.fail .tooDeep : Render Unit))
      (Location.mk owner document) document
  | levels + 1, owner, document =>
    Body.faults settings (renderWithin settings levels)
      (fun _ name callee => faultsWithin settings levels (some name) callee)
      (Location.mk owner document) document

/-- The faults of rendering a document that goes by the name `owner`. -/
def faults (settings : Settings) (owner : Option String) (document : Document) : FaultLog :=
  fun s => faultsWithin settings s.progress.budget.scopesLeft owner document s

end Document

/-- The faults of rendering a template. -/
def Template.faults (t : Template) (values : Object) (options : RenderOptions) : List Fault :=
  match t.document with
  | none => []
  | some document =>
    document.faults (t.settings options) t.parsing.name (t.start values options)

end Stencil
