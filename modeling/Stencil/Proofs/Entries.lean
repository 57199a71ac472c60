import Stencil.Template

/-!
# The loops of a render

Which loops a render enters, one after the other, in the template and in the partials that it calls,
whether they have any turns or not. The definitions below follow those of
`Stencil.Render.Document` one by one, and take every intermediate state from them.

## Key definitions

- `LoopEntry`: a loop that is entered, with what it runs over
- `Body.entries`, `Tag.entries`: the loops of each part of a document
- `Document.entries`, `Document.entriesOfAll`: the loops of whole renders
-/

namespace Stencil

open Render

/-- A loop that is entered. -/
structure LoopEntry where
  /-- The name that its position is kept under. -/
  name : String
  header : LoopHeader
  /-- What it runs over. -/
  slice : Slice
  /-- The state in which it is entered. -/
  state : RenderState

/-- The loops that a step enters, in order, by the state that it starts from. -/
def Entries : Type :=
  RenderState → List LoopEntry

namespace Entries

/-- No loop is entered. -/
def none : Entries :=
  fun _ => []

/-- The loops of what follows a step, if that succeeds. -/
def after {α : Type} (x : Render α) (next : α → Entries) : Entries := fun s =>
  match x s with
  | (.ok a, t) => next a t
  | (.error _, _) => []

/-- The loops of a step, and of what follows it. -/
def bind {α : Type} (entries : Entries) (x : Render α) (next : α → Entries) : Entries := fun s =>
  entries s ++ after x next s

/-- The loops of numbered steps. -/
def steps (step : Nat → Render Bool) (entries : Nat → Entries) (length : Nat) :
    (remaining : Nat) → Entries
  | 0 => none
  | remaining + 1 =>
    bind (entries (length - (remaining + 1))) (step (length - (remaining + 1))) fun more =>
      if more then steps step entries length remaining else none

/-! ## Steps inside something -/

/-- The loops of a step in a scope of its own. -/
def inScope (entries : Entries) : Entries :=
  after (charge Budget.enterScope) fun _ s => entries s.pushScope

/-- The loops of a step under another name. -/
def inTemplate (name : String) (entries : Entries) : Entries := fun s =>
  entries (s.withTemplate (some name))

/-- The loops of a step in a frame of its own. -/
def isolated (template : Option String) (entries : Entries) : Entries := fun s =>
  entries (s.withFrame (s.frame.isolated template))

/-- The loops of a step of a running loop. -/
def inLoop (loop : Value) (entries : Entries) : Entries := fun s =>
  entries (s.withLoops (loop :: s.frame.loops))

/-- The loops of a step that is diverted. -/
def diverted (entries : Entries) : Entries := fun s =>
  entries (s.withOutput "")

/-- The loops of a step that is captured. -/
def captured (entries : Entries) : Entries := fun s =>
  diverted entries s.beginCapture

/-! ## Loops and partials -/

/-- The loops in one iteration. -/
def iteration (name : String) (header : LoopHeader) (slice : Slice) (parent : Value)
    (entries : Entries) (index : Nat) : Entries :=
  after (beginTurn name header slice parent index) fun loop => inLoop loop entries

/-- The loops in the iterations of a loop. -/
def loop (name : String) (header : LoopHeader) (slice : Slice) (body : Render Unit)
    (entries : Entries) : Entries := fun s =>
  -- All iterations see the loop that runs around this one.
  let parent := s.frame.loops.head?.getD .nil
  inScope (steps (Render.iteration name header slice parent body)
    (iteration name header slice parent entries) slice.length slice.length) s

/-- The loops of a partial that is rendered for each item. -/
def eachItem (target : String) (render : Render Unit) (entries : Entries) : List Value → Entries
  | [] => none
  | item :: items =>
    bind (after (bindName target item) fun _ => entries) (do bindName target item; render) fun _ =>
      eachItem target render entries items

/-- The loops of a document that is called. -/
abbrev OfPartials := Document → Entries

/-- The loops of an `include` tag. -/
def includePartial (settings : Settings) (partials : PartialRenderer) (inner : OfPartials)
    (call : PartialCall) : Entries :=
  after (checkEnabled settings "include") fun _ =>
  after (partialName settings call.template) fun name =>
  after (loadPartial settings name) fun document =>
  after (includedObject settings call name) fun object =>
  inTemplate name <| inScope <|
    after (bindAttributes settings call.attributes) fun _ =>
      eachItem (call.objectName name) (partials document) (inner document) (includedItems object)

/-- The loops of a partial that is rendered once. -/
def renderOnce (settings : Settings) (inner : OfPartials) (name : String)
    (attributes : List (String × Value)) (bindings : Render (List (String × Value))) : Entries :=
  after (loadPartial settings name) fun document =>
  after bindings fun bindings =>
  isolated (some name) <| inScope <|
    after (bindAll (attributes ++ bindings)) fun _ => inner document

/-- The loops of a `render` tag. -/
def renderPartial (settings : Settings) (partials : PartialRenderer) (inner : OfPartials)
    (name : String) (call : PartialCall) : Entries :=
  let target := call.objectName name
  after (evaluateAll settings call.attributes) fun attributes =>
  after (passedObject settings target call) fun
    | .once bindings => renderOnce settings inner name attributes (pure bindings)
    | .each members =>
      steps (renderMember settings partials name target attributes members)
        (fun index => renderOnce settings inner name attributes
          (memberBindings name target members index))
        members.length members.length

end Entries

/-! ## Nodes -/

open Entries in
mutual

/-- The loops that a body enters. -/
def Body.entries (settings : Settings) (partials : PartialRenderer) (inner : OfPartials) :
    Body → Entries
  | .mk nodes _ =>
    after (charge (·.chargeScore nodes.length)) fun _ =>
      Node.entriesAll settings partials inner nodes

/-- The loops that nodes enter, in order. -/
def Node.entriesAll (settings : Settings) (partials : PartialRenderer) (inner : OfPartials) :
    List Node → Entries
  | [] => none
  | node :: nodes =>
    bind (Node.entries settings partials inner node) (node.render settings partials) fun more =>
      if more then Node.entriesAll settings partials inner nodes else none

/-- The loops that a node enters. -/
def Node.entries (settings : Settings) (partials : PartialRenderer) (inner : OfPartials) :
    Node → Entries
  | .text _ | .output _ => none
  -- What is written in place of an error of the tag enters no loop.
  | .tag tag => Tag.entries settings partials inner tag

/-- The loops of the first branch that is taken. -/
def Branch.entriesFirst (settings : Settings) (partials : PartialRenderer) (inner : OfPartials)
    (negated : Bool) : List Branch → Entries
  | [] => none
  | .mk condition body :: branches =>
    after (evaluateCondition settings condition) fun holds =>
      if holds != negated then Body.entries settings partials inner body
      else Branch.entriesFirst settings partials inner false branches

/-- The loops of the arms of a choice. -/
def Arm.entriesAll (settings : Settings) (partials : PartialRenderer) (inner : OfPartials)
    (matched : Bool) : List Arm → Entries
  | [] => none
  | .when condition body :: arms =>
    after (evaluateCondition settings condition) fun holds =>
      -- The arms behind one that was rendered are asked as well.
      if holds then
        bind (Body.entries settings partials inner body) (body.render settings partials) fun _ =>
          Arm.entriesAll settings partials inner true arms
      else Arm.entriesAll settings partials inner matched arms
  | .otherwise body :: arms =>
    if matched then Arm.entriesAll settings partials inner matched arms
    else
      bind (Body.entries settings partials inner body) (body.render settings partials) fun _ =>
        Arm.entriesAll settings partials inner matched arms

/-- The loops of numbered sections. -/
def Body.entriesOfSections (settings : Settings) (partials : PartialRenderer) (inner : OfPartials)
    (index : Nat) : List Body → Entries
  | [] => none
  | body :: bodies =>
    after (emit ("<" ++ toString index ++ ">")) fun _ =>
      bind (inScope (Body.entries settings partials inner body))
        (Render.inScope (body.render settings partials)) fun _ =>
        Body.entriesOfSections settings partials inner (index + 1) bodies

/-- The loops of a body, if there is one. -/
def Body.entriesIfAny (settings : Settings) (partials : PartialRenderer) (inner : OfPartials) :
    Option Body → Entries
  | .none => none
  | .some body => Body.entries settings partials inner body

/-- The loops that a tag enters. -/
def Tag.entries (settings : Settings) (partials : PartialRenderer) (inner : OfPartials) :
    Tag → Entries
  | .conditional _ negated branches _ _ =>
    Branch.entriesFirst settings partials inner negated branches
  | .choice arms _ _ => Arm.entriesAll settings partials inner false arms
  | .loop name header body otherwise _ _ => fun s =>
    -- A loop whose attributes cannot be evaluated is not entered.
    after (loopSlice settings name header) (fun slice t =>
      ⟨name, header, slice, s⟩ ::
        (if slice.length = 0 then Body.entriesIfAny settings partials inner otherwise
          else loop name header slice (body.render settings partials)
            (Body.entries settings partials inner body)) t) s
  | .capture _ body _ => captured (Body.entries settings partials inner body)
  | .lines body _ => Body.entries settings partials inner body
  | .includePartial call _ => includePartial settings partials inner call
  | .renderPartial name call _ => renderPartial settings partials inner name call
  | .transform _ _ body => diverted (Body.entries settings partials inner body)
  | .sections _ bodies _ => Body.entriesOfSections settings partials inner 0 bodies
  | .interrupt .. | .assign .. | .comment | .inlineComment | .raw _ | .echo _ | .counter .. => none

end

/-! ## Documents -/

namespace Document

/-- The loops that a document enters that calls partials at most `levels` deep. -/
def entriesWithin (settings : Settings) : (levels : Nat) → Entries.OfPartials
  | 0 => Body.entries settings (fun _ => Attempt.fail .tooDeep) fun _ => Entries.none
  | levels + 1 =>
    Body.entries settings (renderWithin settings levels) (entriesWithin settings levels)

/-- The loops that rendering a document enters, in order. -/
def entries (settings : Settings) (document : Document) : Entries := fun s =>
  entriesWithin settings s.progress.budget.scopesLeft document s

/-- The state after documents were rendered one after the other, whether they failed or not. -/
def afterAll (settings : Settings) (documents : List Document) (s : RenderState) : RenderState :=
  documents.foldl (fun s document => (document.render settings s).2) s

/-- The loops that rendering documents one after the other enters. -/
def entriesOfAll (settings : Settings) : List Document → Entries
  | [] => Entries.none
  | document :: documents => fun s =>
    document.entries settings s ++ entriesOfAll settings documents (document.render settings s).2

end Document

end Stencil
