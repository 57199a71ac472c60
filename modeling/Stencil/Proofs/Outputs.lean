import Stencil.Proofs.Renders

/-!
# Renders with outputs of another kind

To say what a render would be like if some of its outputs were treated differently, the
renderer of bodies takes what an output does as an argument. With what an output does by
itself, it is the renderer of bodies as it is.

## Key results

- `Body.renderBy`, `Document.renderBy`: the renderers with that argument
- `Document.renderBy_rescued`: with outputs as they are, they render as ever
-/

namespace Stencil

open Render

/-- What is done at an output. -/
abbrev OutputRenderer := Pipeline → Render Unit

/-- What is done at an output: its value is written, and an error is dealt with. -/
def rescued (settings : Settings) : OutputRenderer := fun p =>
  rescuing settings p.line false (write settings p)

variable {settings : Settings} {outputs : OutputRenderer} {partials : PartialRenderer}

mutual

/-- Renders a body with `outputs` at its outputs. -/
def Body.renderBy (settings : Settings) (outputs : OutputRenderer) (partials : PartialRenderer) :
    Body → Render Unit
  | .mk nodes _ => do
    charge (·.chargeScore nodes.length)
    Node.renderAllBy settings outputs partials nodes

def Node.renderAllBy (settings : Settings) (outputs : OutputRenderer)
    (partials : PartialRenderer) : List Node → Render Unit
  | [] => pure ()
  | node :: nodes => do
    if ← node.renderBy settings outputs partials then
      Node.renderAllBy settings outputs partials nodes
    else pure ()

def Node.renderBy (settings : Settings) (outputs : OutputRenderer) (partials : PartialRenderer) :
    Node → Render Bool
  | .text text => do
    emit text
    return true
  | .output p => do
    outputs p
    return true
  | .tag tag => do
    rescuing settings tag.line tag.isBlank (Tag.renderBy settings outputs partials tag)
    return !(← interrupted)

def Branch.renderFirstBy (settings : Settings) (outputs : OutputRenderer)
    (partials : PartialRenderer) (negated : Bool) : List Branch → Render Unit
  | [] => pure ()
  | .mk condition body :: branches => do
    if (← evaluateCondition settings condition) != negated then
      Body.renderBy settings outputs partials body
    else Branch.renderFirstBy settings outputs partials false branches

def Arm.renderAllBy (settings : Settings) (outputs : OutputRenderer) (partials : PartialRenderer)
    (matched : Bool) : List Arm → Render Unit
  | [] => pure ()
  | .when condition body :: arms => do
    if ← evaluateCondition settings condition then
      Body.renderBy settings outputs partials body
      Arm.renderAllBy settings outputs partials true arms
    else Arm.renderAllBy settings outputs partials matched arms
  | .otherwise body :: arms => do
    if matched then Arm.renderAllBy settings outputs partials matched arms
    else
      Body.renderBy settings outputs partials body
      Arm.renderAllBy settings outputs partials matched arms

def Body.renderSectionsBy (settings : Settings) (outputs : OutputRenderer)
    (partials : PartialRenderer) (index : Nat) : List Body → Render Unit
  | [] => pure ()
  | body :: bodies => do
    emit ("<" ++ toString index ++ ">")
    inScope (Body.renderBy settings outputs partials body)
    Body.renderSectionsBy settings outputs partials (index + 1) bodies

def Body.renderIfAnyBy (settings : Settings) (outputs : OutputRenderer)
    (partials : PartialRenderer) : Option Body → Render Unit
  | none => pure ()
  | some body => Body.renderBy settings outputs partials body

/-- Renders a tag with `outputs` at the outputs inside it. Tags that hold no bodies are rendered
as ever. -/
def Tag.renderBy (settings : Settings) (outputs : OutputRenderer) (partials : PartialRenderer) :
    Tag → Render Unit
  | .conditional _ negated branches _ _ =>
    Branch.renderFirstBy settings outputs partials negated branches
  | .choice arms _ _ => Arm.renderAllBy settings outputs partials false arms
  | .loop name header body otherwise _ _ => do
    let slice ← loopSlice settings name header
    if slice.length = 0 then Body.renderIfAnyBy settings outputs partials otherwise
    else Render.loop name header slice (Body.renderBy settings outputs partials body)
  | .capture target body _ => do
    store target (.str (← captured (Body.renderBy settings outputs partials body)))
  | .lines body _ => Body.renderBy settings outputs partials body
  | .transform _ f body => do
    emit (f (← diverted (Body.renderBy settings outputs partials body)))
  | .sections _ bodies _ => Body.renderSectionsBy settings outputs partials 0 bodies
  | tag => Tag.render settings partials tag

end

namespace Document

/-- Renders a document that calls partials at most `levels` deep, with `outputs` at all outputs. -/
def renderWithinBy (settings : Settings) (outputs : OutputRenderer) :
    (levels : Nat) → Document → Render Unit
  | 0 => Body.renderBy settings outputs fun _ => Attempt.fail .tooDeep
  | levels + 1 => Body.renderBy settings outputs (renderWithinBy settings outputs levels)

/-- Renders a document with `outputs` at all outputs. -/
def renderBy (settings : Settings) (outputs : OutputRenderer) (document : Document) :
    Render Unit := fun s =>
  renderWithinBy settings outputs s.progress.budget.scopesLeft document s

end Document

/-! ## Outputs as they are -/

mutual

/-- Rendering with rescued outputs is rendering. -/
theorem Body.renderBy_rescued : ∀ body : Body,
    Body.renderBy settings (rescued settings) partials body = Body.render settings partials body
  | .mk nodes _ => by rw [Body.renderBy, Body.render, Node.renderAllBy_rescued nodes]

theorem Node.renderAllBy_rescued : ∀ nodes : List Node,
    Node.renderAllBy settings (rescued settings) partials nodes
      = Node.renderAll settings partials nodes
  | [] => rfl
  | node :: nodes => by
    rw [Node.renderAllBy, Node.renderAll_cons, Node.renderBy_rescued node,
      Node.renderAllBy_rescued nodes]

theorem Node.renderBy_rescued : ∀ node : Node,
    Node.renderBy settings (rescued settings) partials node = Node.render settings partials node
  | .text _ => rfl
  | .output _ => rfl
  | .tag tag => by rw [Node.renderBy, Node.render, Tag.renderBy_rescued tag]

theorem Branch.renderFirstBy_rescued (negated : Bool) : ∀ branches : List Branch,
    Branch.renderFirstBy settings (rescued settings) partials negated branches
      = Branch.renderFirst settings partials negated branches
  | [] => rfl
  | .mk condition body :: branches => by
    rw [Branch.renderFirstBy, Branch.renderFirst, Body.renderBy_rescued body,
      Branch.renderFirstBy_rescued false branches]

theorem Arm.renderAllBy_rescued (matched : Bool) : ∀ arms : List Arm,
    Arm.renderAllBy settings (rescued settings) partials matched arms
      = Arm.renderAll settings partials matched arms
  | [] => rfl
  | .when condition body :: arms => by
    rw [Arm.renderAllBy, Arm.renderAll, Body.renderBy_rescued body,
      Arm.renderAllBy_rescued true arms, Arm.renderAllBy_rescued matched arms]
  | .otherwise body :: arms => by
    rw [Arm.renderAllBy, Arm.renderAll, Body.renderBy_rescued body,
      Arm.renderAllBy_rescued matched arms]

theorem Body.renderSectionsBy_rescued (index : Nat) : ∀ bodies : List Body,
    Body.renderSectionsBy settings (rescued settings) partials index bodies
      = Body.renderSections settings partials index bodies
  | [] => rfl
  | body :: bodies => by
    rw [Body.renderSectionsBy, Body.renderSections, Body.renderBy_rescued body,
      Body.renderSectionsBy_rescued (index + 1) bodies]

theorem Body.renderIfAnyBy_rescued : ∀ body : Option Body,
    Body.renderIfAnyBy settings (rescued settings) partials body
      = Body.renderIfAny settings partials body
  | none => rfl
  | some body => Body.renderBy_rescued body

theorem Tag.renderBy_rescued : ∀ tag : Tag,
    Tag.renderBy settings (rescued settings) partials tag = Tag.render settings partials tag
  | .conditional _ negated branches _ _ => by
    rw [Tag.renderBy, Tag.render, Branch.renderFirstBy_rescued negated branches]
  | .choice arms _ _ => by rw [Tag.renderBy, Tag.render, Arm.renderAllBy_rescued false arms]
  -- Bodies stand in six kinds of tag; the others hold no outputs of their own.
  | .loop name header body otherwise _ _ => by
    rw [Tag.renderBy, Tag.render, Body.renderBy_rescued body,
      Body.renderIfAnyBy_rescued otherwise]
  | .capture _ body _ => by rw [Tag.renderBy, Tag.render, Body.renderBy_rescued body]
  | .lines body _ => by rw [Tag.renderBy, Tag.render, Body.renderBy_rescued body]
  | .transform _ f body => by rw [Tag.renderBy, Tag.render, Body.renderBy_rescued body]
  | .sections _ bodies _ => by rw [Tag.renderBy, Tag.render, Body.renderSectionsBy_rescued 0 bodies]
  | .interrupt .. => rfl
  | .assign .. => rfl
  | .comment => rfl
  | .inlineComment => rfl
  | .raw _ => rfl
  | .echo _ => rfl
  | .includePartial .. => rfl
  | .renderPartial .. => rfl
  | .counter .. => rfl

end

namespace Document

theorem renderWithinBy_rescued (levels : Nat) :
    renderWithinBy settings (rescued settings) levels = renderWithin settings levels := by
  induction levels with
  | zero => exact funext fun document => Body.renderBy_rescued document
  | succ levels ih =>
    funext document
    rw [renderWithinBy, ih, Body.renderBy_rescued, renderWithin]

/-- With outputs as they are, a document is rendered as ever. -/
theorem renderBy_rescued (document : Document) :
    document.renderBy settings (rescued settings) = document.render settings := by
  funext s
  rw [renderBy, renderWithinBy_rescued]
  rfl

end Document

end Stencil
